import Mathlib.Tactic.Ring
import SchemaClasses.DefaultValue

/-! Equality of JSON values, and of the default values made from them, is transitive. -/

namespace SchemaClasses

namespace Binary64

/-- A product with a power of two is odd only if the power is one. -/
theorem shift_eq_zero_of_odd {significand shift : Nat} (odd : significand * twoTo shift % 2 = 1) :
    shift = 0 := by
  cases shift with
  | zero => rfl
  | succ n =>
    have even : significand * twoTo (n + 1) = 2 * (significand * twoTo n) := by
      simp only [twoTo, Nat.pow_eq, Nat.pow_succ]
      ring
    omega

/-- A power of two does not make a number zero. -/
theorem mul_twoTo_eq_zero {significand shift : Nat} :
    significand * twoTo shift = 0 ↔ significand = 0 := by
  simp [twoTo]

/-- Odd significands with equal magnitudes have equal exponents, hence are equal. -/
theorem eq_of_shifted {a b : Nat} {i j unit : Int} (oddA : a % 2 = 1) (oddB : b % 2 = 1)
    (least : unit = min i j)
    (same : a * twoTo (i - unit).toNat = b * twoTo (j - unit).toNat) : a = b ∧ i = j := by
  -- One of the two shifts is zero, so its side is odd, and so is the other side.
  rcases Int.le_total i j with below | below
  · have here : (i - unit).toNat = 0 := by omega
    have odd : b * twoTo (j - unit).toNat % 2 = 1 := by
      rw [← same, here]
      simpa [twoTo] using oddA
    have there := shift_eq_zero_of_odd odd
    rw [here, there] at same
    exact ⟨by simpa [twoTo] using same, by omega⟩
  · have there : (j - unit).toNat = 0 := by omega
    have odd : a * twoTo (i - unit).toNat % 2 = 1 := by
      rw [same, there]
      simpa [twoTo] using oddB
    have here := shift_eq_zero_of_odd odd
    rw [here, there] at same
    exact ⟨by simpa [twoTo] using same, by omega⟩

/-- Two doubles are numerically equal when they are the same or both are zero. -/
theorem equals_iff {x y : Binary64} :
    x.equals y = true ↔ x = y ∨ x.significand = 0 ∧ y.significand = 0 := by
  -- Counted in smaller units, a value is zero exactly if its significand is.
  have units (x : Binary64) (unit : Int) :
      x.unitsOf unit = 0 ↔ x.significand = 0 := by
    unfold unitsOf
    split <;> simp [twoTo]
  simp only [equals, cmp, beq_iff_eq, compare_eq_iff_eq]
  constructor
  · intro same
    -- Both are zero, or neither is.
    by_cases zero : x.significand = 0
    · exact .inr ⟨zero, (units y _).mp (same ▸ (units x _).mpr zero)⟩
    · have other : y.significand ≠ 0 := fun zero' =>
        zero ((units x _).mp (same.trans ((units y _).mpr zero')))
      -- A double that is not zero has an odd significand.
      have oddX := x.canonical.resolve_right fun both => zero both.1
      have oddY := y.canonical.resolve_right fun both => other both.1
      have nonzeroX : x.significand * twoTo (x.exponent - min x.exponent y.exponent).toNat ≠ 0 :=
        fun none => zero (mul_twoTo_eq_zero.mp none)
      have nonzeroY : y.significand * twoTo (y.exponent - min x.exponent y.exponent).toNat ≠ 0 :=
        fun none => other (mul_twoTo_eq_zero.mp none)
      -- Neither magnitude is zero, so the signs agree.
      unfold unitsOf at same
      have magnitudes : x.negative = y.negative ∧
          x.significand * twoTo (x.exponent - min x.exponent y.exponent).toNat =
            y.significand * twoTo (y.exponent - min x.exponent y.exponent).toNat := by
        norm_cast at same
        grind
      obtain ⟨significand, exponent⟩ := eq_of_shifted oddX oddY rfl magnitudes.2
      cases x
      cases y
      simp_all
  · rintro (rfl | ⟨zero, zero'⟩)
    · rfl
    · rw [(units x _).mpr zero, (units y _).mpr zero']

/-- Numeric equality is transitive. -/
theorem equals_trans {x y z : Binary64} (first : x.equals y = true) (second : y.equals z = true) :
    x.equals z = true := by
  rw [equals_iff] at *
  grind

end Binary64

/-- A member that a list of pairs yields for a key is one of its pairs. -/
theorem mem_of_lookup_eq_some {α β : Type} [BEq α] [LawfulBEq α] {key : α} {value : β}
    {pairs : List (α × β)} (found : pairs.lookup key = some value) : (key, value) ∈ pairs := by
  induction pairs with
  | nil => simp at found
  | cons pair rest ih =>
    -- The first pair is the one asked for, or the search goes on behind it.
    obtain ⟨other, held⟩ := pair
    rw [List.lookup_cons] at found
    split at found
    · simp_all
    · exact List.mem_cons_of_mem _ (ih found)

namespace Json

/-- An equal member stands on the right for every member on the left. -/
theorem sameMembers_iff {members others : List (String × Json)} :
    sameMembers members others = true ↔
      ∀ key value, (key, value) ∈ members →
        ∃ other, others.lookup key = some other ∧ same value other = true := by
  induction members with
  | nil => simp [sameMembers]
  | cons member rest ih =>
    obtain ⟨key, value⟩ := member
    -- The first member has its match, and so have all others.
    rw [sameMembers, Bool.and_eq_true, ih]
    constructor
    · rintro ⟨first, later⟩ key' value' member
      rcases List.mem_cons.mp member with here | member
      · obtain ⟨rfl, rfl⟩ := Prod.mk.inj here
        split at first
        · exact ⟨_, ‹_›, first⟩
        · simp at first
      · exact later key' value' member
    · intro all
      refine ⟨?_, fun key' value' member => all key' value' (List.mem_cons_of_mem _ member)⟩
      obtain ⟨other, found, agrees⟩ := all key value List.mem_cons_self
      rw [found]
      exact agrees

/-- Item by item equality is transitive as far as equality of the items is. -/
theorem sameItems_trans {as bs cs : List Json}
    (items : ∀ a ∈ as, ∀ b c, same a b = true → same b c = true → same a c = true)
    (first : sameItems as bs = true) (second : sameItems bs cs = true) :
    sameItems as cs = true := by
  induction as generalizing bs cs with
  | nil =>
    cases bs with
    | nil => exact second
    | cons b bs => simp [sameItems] at first
  | cons a as ih =>
    -- Equality goes item by item, so all three lists have the same length.
    obtain _ | ⟨b, bs⟩ := bs
    · simp [sameItems] at first
    obtain _ | ⟨c, cs⟩ := cs
    · simp [sameItems] at second
    simp only [sameItems, Bool.and_eq_true] at first second ⊢
    exact ⟨items a List.mem_cons_self b c first.1 second.1,
      ih (fun other member => items other (List.mem_cons_of_mem _ member)) first.2 second.2⟩

/-- Member by member equality is transitive as far as equality of the values is. -/
theorem sameMembers_trans {as bs cs : List (String × Json)}
    (values : ∀ pair ∈ as, ∀ b c, same pair.2 b = true → same b c = true → same pair.2 c = true)
    (first : sameMembers as bs = true) (second : sameMembers bs cs = true) :
    sameMembers as cs = true := by
  rw [sameMembers_iff] at *
  intro key a member
  obtain ⟨b, found, agrees⟩ := first key a member
  obtain ⟨c, found', agrees'⟩ := second key b (mem_of_lookup_eq_some found)
  exact ⟨c, found', values _ member b c agrees agrees'⟩

/-- Equality of values is transitive. -/
theorem same_trans {a b c : Json} (first : same a b = true) (second : same b c = true) :
    same a c = true := by
  -- The kinds of the three values agree, so only arrays and objects need the values inside.
  match a, b, c with
  | null, null, null => rfl
  | bool _, bool _, bool _ => simp_all [same]
  | integer _, integer _, integer _ => simp_all [same]
  | float _, float _, float _ => exact Binary64.equals_trans first second
  | string _, string _, string _ => simp_all [same]
  | array as, array bs, array cs =>
    rw [same] at *
    exact sameItems_trans (fun item member _ _ => same_trans) first second
  | object as, object bs, object cs =>
    simp only [same, Bool.and_eq_true, beq_iff_eq] at *
    exact ⟨first.1.trans second.1,
      sameMembers_trans (fun pair member _ _ => same_trans) first.2 second.2⟩
termination_by sizeOf a
decreasing_by
  · have := List.sizeOf_lt_of_mem member
    simp
    omega
  · have := List.sizeOf_lt_of_mem member
    obtain ⟨key, value⟩ := pair
    simp at this ⊢
    omega

/-- Equality of lists of values is transitive. -/
theorem list_beq_trans {as bs cs : List Json} (first : (as == bs) = true)
    (second : (bs == cs) = true) : (as == cs) = true := by
  induction as generalizing bs cs with
  | nil =>
    cases bs with
    -- Equality goes item by item, so all three lists have the same length.
    | nil => exact second
    | cons b bs => simp at first
  | cons a as ih =>
    obtain _ | ⟨b, bs⟩ := bs
    · simp at first
    obtain _ | ⟨c, cs⟩ := cs
    · simp at second
    simp only [List.cons_beq_cons, Bool.and_eq_true] at first second ⊢
    exact ⟨same_trans first.1 second.1, ih first.2 second.2⟩

end Json

namespace DefaultValue

/-- Item by item equality is transitive as far as equality of the items is. -/
theorem sameItems_trans {as bs cs : List DefaultValue}
    (items : ∀ a ∈ as, ∀ b c, same a b = true → same b c = true → same a c = true)
    (first : sameItems as bs = true) (second : sameItems bs cs = true) :
    sameItems as cs = true := by
  induction as generalizing bs cs with
  | nil =>
    cases bs with
    | nil => exact second
    | cons b bs => simp [sameItems] at first
  | cons a as ih =>
    -- Equality goes item by item, so all three lists have the same length.
    obtain _ | ⟨b, bs⟩ := bs
    · simp [sameItems] at first
    obtain _ | ⟨c, cs⟩ := cs
    · simp [sameItems] at second
    simp only [sameItems, Bool.and_eq_true] at first second ⊢
    exact ⟨items a List.mem_cons_self b c first.1 second.1,
      ih (fun other member => items other (List.mem_cons_of_mem _ member)) first.2 second.2⟩

/-- Equality of default values is transitive. -/
theorem same_trans {a b c : DefaultValue} (first : same a b = true) (second : same b c = true) :
    same a c = true := by
  -- Values of different kinds are never equal, so all three are of one kind.
  match a, b, c with
  | null, null, null => rfl
  | boolean _, boolean _, boolean _ => simp_all [same]
  | integer _, integer _, integer _ => simp_all [same]
  | decimal _, decimal _, decimal _ => exact Binary64.equals_trans first second
  | string _, string _, string _ => simp_all [same]
  | array as, array bs, array cs =>
    rw [same] at *
    exact sameItems_trans (fun item member _ _ => same_trans) first second
termination_by sizeOf a
decreasing_by
  have := List.sizeOf_lt_of_mem member
  simp
  omega

end DefaultValue

end SchemaClasses
