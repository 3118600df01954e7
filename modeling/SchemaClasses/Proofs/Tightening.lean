import SchemaClasses.Proofs.Absorption
import SchemaClasses.Proofs.Binary64

/-! Merged bounds only tighten, and a bound that was taken in once is never taken in again. Whole
numbers and decimals are compared with a rounding in between, which does not spoil either. -/

namespace SchemaClasses

namespace Quantity

/-- The exact value. -/
def value : Quantity → ℚ
  | whole n => n
  | decimal x => x.value

/-- Whether a number is one that a document can state: a whole number of 64 bits or a double. -/
def IsProper : Quantity → Prop
  | whole n => minSigned ≤ n ∧ n ≤ maxSigned
  | decimal x => x.IsShort

instance (q : Quantity) : Decidable q.IsProper :=
  match q with
  | whole n => inferInstanceAs (Decidable (minSigned ≤ n ∧ n ≤ maxSigned))
  | decimal x => inferInstanceAs (Decidable (x.significand < 2 ^ 53))

/-- Whether a number compares as greater than another. -/
def Exceeds (a b : Quantity) : Prop := a.cmp b = .gt

/-- A number that compares as less is exceeded. -/
theorem cmp_eq_lt {a b : Quantity} : a.cmp b = .lt ↔ b.Exceeds a := by
  unfold Exceeds
  -- Two whole numbers are compared exactly and any others as doubles.
  cases a with
  | whole n =>
    cases b with
    | whole m => simp only [cmp, Int.compare_eq_lt, Int.compare_eq_gt]
    | decimal y => simp only [cmp, Binary64.cmp_eq_lt, Binary64.cmp_eq_gt]
  | decimal x =>
    cases b with
    | whole m => simp only [cmp, Binary64.cmp_eq_lt, Binary64.cmp_eq_gt]
    | decimal y => simp only [cmp, Binary64.cmp_eq_lt, Binary64.cmp_eq_gt]

/-- Whole numbers exceed each other exactly, and all other numbers as doubles. -/
theorem exceeds_iff {a b : Quantity} :
    a.Exceeds b ↔ (∃ n m, a = whole n ∧ b = whole m ∧ m < n) ∨
      ¬(∃ n m, a = whole n ∧ b = whole m) ∧ b.toBinary64.value < a.toBinary64.value := by
  unfold Exceeds
  -- The four pairs of forms.
  cases a with
  | whole n =>
    cases b with
    | whole m => simp [cmp, Int.compare_eq_gt]
    | decimal y => simp [cmp, Binary64.cmp_eq_gt]
  | decimal x =>
    cases b with
    | whole m => simp [cmp, Binary64.cmp_eq_gt]
    | decimal y => simp [cmp, Binary64.cmp_eq_gt]

/-- No number exceeds itself. -/
theorem not_exceeds_self (a : Quantity) : ¬a.Exceeds a := by
  rw [exceeds_iff]
  rintro (⟨n, m, same, same', less⟩ | ⟨-, less⟩)
  · obtain rfl : n = m := Quantity.whole.inj (same.symm.trans same')
    exact absurd less (Int.lt_irrefl n)
  · exact absurd less (lt_irrefl _)

theorem natAbs_lt {n : Int} (proper : (whole n).IsProper) : n.natAbs < 2 ^ 64 := by
  obtain ⟨lower, upper⟩ := proper
  simp only [minSigned, maxSigned] at lower upper
  omega

/-- As doubles, numbers keep the order in which they exceed each other. -/
theorem Exceeds.double_le {a b : Quantity} (exceeds : a.Exceeds b) (properA : a.IsProper)
    (properB : b.IsProper) : b.toBinary64.value ≤ a.toBinary64.value := by
  rcases exceeds_iff.mp exceeds with ⟨n, m, rfl, rfl, less⟩ | ⟨-, less⟩
  · exact Binary64.value_ofInt_mono (natAbs_lt properB) (natAbs_lt properA) less.le
  · exact less.le

/-- A number that is greater as a double exceeds the other. -/
theorem exceeds_of_double_lt {a b : Quantity} (properA : a.IsProper) (properB : b.IsProper)
    (less : b.toBinary64.value < a.toBinary64.value) : a.Exceeds b := by
  by_cases wholes : ∃ n m, a = whole n ∧ b = whole m
  · obtain ⟨n, m, rfl, rfl⟩ := wholes
    refine exceeds_iff.mpr (.inl ⟨n, m, rfl, rfl, ?_⟩)
    by_contra atMost
    have mono := Binary64.value_ofInt_mono (natAbs_lt properA) (natAbs_lt properB) (not_lt.mp atMost)
    exact absurd less (not_lt.mpr mono)
  · exact exceeds_iff.mpr (.inr ⟨wholes, less⟩)

/-- Although some numbers are rounded before they are compared, the order is transitive. -/
theorem Exceeds.trans {a b c : Quantity} (first : a.Exceeds b) (second : b.Exceeds c)
    (properA : a.IsProper) (properB : b.IsProper) (properC : c.IsProper) : a.Exceeds c := by
  -- As doubles, the three numbers are in order in any case.
  have lower := second.double_le properB properC
  have upper := first.double_le properA properB
  rcases exceeds_iff.mp first with ⟨n, m, rfl, rfl, less⟩ | ⟨-, less⟩
  · -- Three whole numbers exceed each other by their order.
    rcases exceeds_iff.mp second with ⟨n', m', same, rfl, less'⟩ | ⟨-, less'⟩
    · obtain rfl : m = n' := Quantity.whole.inj same
      exact exceeds_iff.mpr (.inl ⟨n, m', rfl, rfl, less'.trans less⟩)
    · exact exceeds_of_double_lt properA properC (less'.trans_le upper)
  · exact exceeds_of_double_lt properA properC (lower.trans_lt less)

/-- A number that exceeds another one is greater. -/
theorem Exceeds.value_lt {a b : Quantity} (exceeds : a.Exceeds b) (properA : a.IsProper)
    (properB : b.IsProper) : b.value < a.value := by
  -- Whole numbers are their own values.
  rcases exceeds_iff.mp exceeds with ⟨n, m, rfl, rfl, less⟩ | ⟨mixed, less⟩
  · show (m : ℚ) < n
    exact_mod_cast less
  · -- Rounding a whole number does not pass the double that it is compared with.
    by_contra atMost
    have atMost := not_lt.mp atMost
    cases a with
    | whole n =>
      cases b with
      | whole m => exact mixed ⟨n, m, rfl, rfl⟩
      | decimal y =>
        exact absurd less (not_lt.mpr (Binary64.value_ofInt_le (natAbs_lt properA) properB atMost))
    | decimal x =>
      cases b with
      | whole m =>
        exact absurd less (not_lt.mpr (Binary64.le_value_ofInt (natAbs_lt properB) properA atMost))
      | decimal y => exact absurd less (not_lt.mpr atMost)

end Quantity

/-- Whether a number lies at another one or further inside a range that is closed at this end. -/
def Side.Inward (side : Side) (outer inner : ℚ) : Prop :=
  match side with
  | .minimum => outer ≤ inner
  | .maximum => inner ≤ outer

namespace Side.Inward

variable {side : Side} {a b c : ℚ}

protected theorem refl (side : Side) (a : ℚ) : side.Inward a a := by
  cases side <;> exact le_refl a

protected theorem trans (first : side.Inward a b) (second : side.Inward b c) : side.Inward a c := by
  cases side with
  | minimum => exact le_trans first second
  | maximum => exact le_trans second first

protected theorem antisymm (first : side.Inward a b) (second : side.Inward b a) : a = b := by
  cases side with
  | minimum => exact le_antisymm first second
  | maximum => exact le_antisymm second first

end Side.Inward

namespace Bound

/-- Whether a bound takes the place of a held one by its value. -/
def Beats (side : Side) (incoming held : Bound) : Prop :=
  match side with
  | .minimum => incoming.value.Exceeds held.value
  | .maximum => held.value.Exceeds incoming.value

/-- Whether a bound that is kept is as tight as one that was held before. -/
structure Tightened (side : Side) (held kept : Bound) : Prop where
  order : kept.Beats side held ∨ kept.value = held.value
  value : side.Inward held.value.value kept.value.value
  /-- At the same value an exclusive bound stays exclusive. -/
  exclusive : kept.value.value = held.value.value → held.exclusive = true → kept.exclusive = true

variable {side : Side} {a b c held incoming kept : Bound}

theorem Tightened.refl (side : Side) (bound : Bound) : Tightened side bound bound where
  order := .inr rfl
  value := .refl side _
  exclusive _ exclusive := exclusive

/-- A bound with a tighter value. -/
theorem Beats.tightened (beats : kept.Beats side held) (proper : held.value.IsProper)
    (proper' : kept.value.IsProper) : Tightened side held kept := by
  cases side with
  | minimum =>
    have less := Quantity.Exceeds.value_lt beats proper' proper
    exact ⟨.inl beats, less.le, fun same => absurd same less.ne'⟩
  | maximum =>
    have less := Quantity.Exceeds.value_lt beats proper proper'
    exact ⟨.inl beats, less.le, fun same => absurd same less.ne⟩

theorem Beats.trans (first : b.Beats side a) (second : c.Beats side b) (properA : a.value.IsProper)
    (properB : b.value.IsProper) (properC : c.value.IsProper) : c.Beats side a := by
  cases side with
  | minimum => exact Quantity.Exceeds.trans second first properC properB properA
  | maximum => exact Quantity.Exceeds.trans first second properA properB properC

/-- Bounds at one value are beaten alike. -/
theorem Beats.congr (beats : c.Beats side b) (same : b.value = a.value) : c.Beats side a := by
  cases side with
  | minimum =>
    unfold Beats
    rw [← same]
    exact beats
  | maximum =>
    unfold Beats
    rw [← same]
    exact beats

/-- Bounds at one value beat alike. -/
theorem Beats.congr' (beats : c.Beats side a) (same : c.value = b.value) : b.Beats side a := by
  cases side with
  | minimum =>
    unfold Beats
    rw [← same]
    exact beats
  | maximum =>
    unfold Beats
    rw [← same]
    exact beats

theorem not_beats_self (side : Side) (bound : Bound) : ¬bound.Beats side bound := by
  cases side <;> exact Quantity.not_exceeds_self _

theorem Tightened.trans (first : Tightened side a b) (second : Tightened side b c)
    (properA : a.value.IsProper) (properB : b.value.IsProper) (properC : c.value.IsProper) :
    Tightened side a c where
  order := by
    rcases second.order with beats | same
    · -- The second bound beats its predecessor or has the same value.
      rcases first.order with beats' | same'
      · exact .inl (beats'.trans beats properA properB properC)
      · exact .inl (beats.congr same')
    · exact first.order.imp (fun beats => beats.congr' same.symm) same.trans
  -- The values are in order, as both steps go inward.
  value := first.value.trans second.value
  exclusive := by
    intro same exclusive
    -- What lies between equal values is equal to both.
    have back : side.Inward b.value.value a.value.value := same ▸ second.value
    have between : b.value.value = a.value.value := back.antisymm first.value
    exact second.exclusive (same.trans between.symm) (first.exclusive between exclusive)

/-- A bound that beats the held one takes its place. -/
theorem tighter_of_beats (beats : incoming.Beats side held) :
    tighter side (some held) incoming = incoming := by
  cases side with
  | minimum =>
    have greater : incoming.value.cmp held.value = .gt := beats
    simp [tighter, tighterMinimum, greater]
  | maximum =>
    have less : incoming.value.cmp held.value = .lt := Quantity.cmp_eq_lt.mpr beats
    simp [tighter, tighterMaximum, less]

/-- At one value an exclusive bound takes the place of the held one. -/
theorem tighter_of_exclusive (same : incoming.value = held.value)
    (exclusive : incoming.exclusive = true) : tighter side (some held) incoming = incoming := by
  cases side <;> simp [tighter, tighterMinimum, tighterMaximum, same, exclusive]

/-- All other bounds leave the held one in place. -/
theorem tighter_of_not_beats (beaten : ¬incoming.Beats side held)
    (covered : ¬(incoming.value = held.value ∧ incoming.exclusive = true)) :
    tighter side (some held) incoming = held := by
  -- Neither does the incoming one beat, nor is it the same bound made exclusive.
  cases side with
  | minimum =>
    have atMost : incoming.value.cmp held.value ≠ .gt := beaten
    simp [tighter, tighterMinimum, atMost, covered]
  | maximum =>
    have atLeast : incoming.value.cmp held.value ≠ .lt := mt Quantity.cmp_eq_lt.mp beaten
    simp [tighter, tighterMaximum, atLeast, covered]

/-- The tighter of two bounds is one of them. -/
theorem tighter_mem (side : Side) (current : Option Bound) (incoming : Bound) :
    current = some (tighter side current incoming) ∨ tighter side current incoming = incoming := by
  -- Without a held bound, the incoming one is taken.
  cases current with
  | none => cases side <;> exact .inr rfl
  | some held =>
    by_cases beats : incoming.Beats side held
    · exact .inr (tighter_of_beats beats)
    · by_cases covered : incoming.value = held.value ∧ incoming.exclusive = true
      · exact .inr (tighter_of_exclusive covered.1 covered.2)
      · exact .inl (congrArg some (tighter_of_not_beats beats covered).symm)

/-- The tighter of two bounds is as tight as the held one. -/
theorem tightened_tighter (proper : held.value.IsProper) (proper' : incoming.value.IsProper) :
    Tightened side held (tighter side (some held) incoming) := by
  -- The incoming bound beats the held one, sharpens it, or leaves it.
  by_cases beats : incoming.Beats side held
  · rw [tighter_of_beats beats]
    exact beats.tightened proper proper'
  · by_cases covered : incoming.value = held.value ∧ incoming.exclusive = true
    · obtain ⟨same, exclusive⟩ := covered
      rw [tighter_of_exclusive same exclusive]
      refine ⟨.inr same, ?_, fun _ _ => exclusive⟩
      rw [same]
      exact (Tightened.refl side held).value
    · rw [tighter_of_not_beats beats covered]
      exact .refl side held

/-- The tighter of two proper bounds is proper. -/
theorem isProper_tighter {current : Option Bound} (proper : ∀ held ∈ current, held.value.IsProper)
    (proper' : incoming.value.IsProper) :
    (tighter side current incoming).value.IsProper := by
  rcases tighter_mem side current incoming with held | new
  · exact proper _ held
  · rwa [new]

/-- Whether a bound leaves a held one in place. -/
def Spares (side : Side) (incoming held : Bound) : Prop := tighter side (some held) incoming = held

/-- A bound that is taken in leaves what it made in place. -/
theorem spares_tighter (side : Side) (current : Option Bound) (incoming : Bound) :
    incoming.Spares side (tighter side current incoming) := by
  -- A bound that is met again by itself stays.
  have itself : incoming.Spares side incoming := by
    by_cases exclusive : incoming.exclusive = true
    · exact tighter_of_exclusive rfl exclusive
    · exact tighter_of_not_beats (not_beats_self side incoming) fun both => exclusive both.2
  cases current with
  | none => cases side <;> exact itself
  | some held =>
    by_cases beats : incoming.Beats side held
    · rwa [tighter_of_beats beats]
    · by_cases covered : incoming.value = held.value ∧ incoming.exclusive = true
      · rwa [tighter_of_exclusive covered.1 covered.2]
      · -- A bound that stayed once stays again.
        have stays := tighter_of_not_beats beats covered
        rw [stays]
        exact stays

/-- A bound that leaves a held one in place does not beat it. -/
theorem Spares.not_beats (spares : incoming.Spares side held) : ¬incoming.Beats side held := by
  intro beats
  have same : incoming = held := (tighter_of_beats beats).symm.trans spares
  exact not_beats_self side held (same ▸ beats)

/-- An exclusive bound that leaves one of the same value in place is that one. -/
theorem Spares.eq_of_exclusive (spares : incoming.Spares side held) (same : incoming.value = held.value)
    (exclusive : incoming.exclusive = true) : incoming = held :=
  (tighter_of_exclusive same exclusive).symm.trans spares

/-- A bound that leaves a held one in place leaves a tighter one in place as well. -/
theorem Spares.tightened (spares : incoming.Spares side held) (tight : Tightened side held kept)
    (properIncoming : incoming.value.IsProper) (properHeld : held.value.IsProper)
    (properKept : kept.value.IsProper) : incoming.Spares side kept := by
  have unbeaten := spares.not_beats
  by_cases beats : incoming.Beats side kept
  · -- Whatever beats the tighter bound would have beaten the held one.
    rcases tight.order with beats' | same
    · exact absurd (beats'.trans beats properHeld properKept properIncoming) unbeaten
    · exact absurd (beats.congr same) unbeaten
  · by_cases covered : incoming.value = kept.value ∧ incoming.exclusive = true
    · obtain ⟨same, exclusive⟩ := covered
      rcases tight.order with beats' | same'
      · exact absurd (beats'.congr' same.symm) unbeaten
      · -- At the held value the incoming bound is the held one, so both are the kept one.
        have here : incoming = held := spares.eq_of_exclusive (same.trans same') exclusive
        have exclusive' : kept.exclusive = true :=
          tight.exclusive (congrArg Quantity.value same') (here ▸ exclusive)
        have equal : incoming = kept := by
          cases incoming
          cases kept
          simp_all
        exact (tighter_of_exclusive same exclusive).trans equal
    · exact tighter_of_not_beats beats covered

end Bound

end SchemaClasses
