import Mathlib.Data.List.Induction
import SchemaClasses.Proofs.Absorption
import SchemaClasses.Survey

/-! Schemas on whole numbers: limits, conjunctions and negations nested in any way, the numbers that they
admit, and the limits that they state on the two sides of a negation. -/

namespace SchemaClasses

/-- A limit on signed 64-bit numbers. -/
structure Limit where
  side : Side
  value : Int64
  exclusive : Bool
deriving DecidableEq, Repr

namespace Limit

/-- Whether a number lies within the limit. -/
def Admits (limit : Limit) (n : Int64) : Prop :=
  match limit.side, limit.exclusive with
  | .minimum, false => limit.value ≤ n
  | .minimum, true => limit.value < n
  | .maximum, false => n ≤ limit.value
  | .maximum, true => n < limit.value

/-- The bound that states the limit. -/
def bound (limit : Limit) : Bound := ⟨.whole limit.value.toInt, limit.exclusive⟩

/-- Whether the limit excludes the last number there is on its side, and with that every number. -/
def IsExtreme (limit : Limit) : Prop :=
  limit.exclusive = true ∧ limit.value = match limit.side with
    | .minimum => Int64.maxValue
    | .maximum => Int64.minValue

/-- Whether a number lies within the limit once it is closed: the next number beyond an exclusive limit
is the last one at most. -/
def Keeps (limit : Limit) (n : Int64) : Prop :=
  limit.Admits n ∨ limit.IsExtreme ∧ n = limit.value

/-- Whether a whole number lies within the limit that closes a bound. -/
def Closes (side : Side) (bound : Bound) (n : Int) : Prop :=
  match side with
  | .minimum => bound.leastInteger ≤ n
  | .maximum => n ≤ bound.greatestInteger

instance (limit : Limit) (n : Int64) : Decidable (limit.Admits n) :=
  match limit with
  | ⟨.minimum, value, false⟩ => inferInstanceAs (Decidable (value ≤ n))
  | ⟨.minimum, value, true⟩ => inferInstanceAs (Decidable (value < n))
  | ⟨.maximum, value, false⟩ => inferInstanceAs (Decidable (n ≤ value))
  | ⟨.maximum, value, true⟩ => inferInstanceAs (Decidable (n < value))

instance (limit : Limit) : Decidable limit.IsExtreme := inferInstanceAs (Decidable (_ ∧ _))

instance (limit : Limit) (n : Int64) : Decidable (limit.Keeps n) := inferInstanceAs (Decidable (_ ∨ _))

variable {limit other : Limit} {n : Int64}

/-- What a limit admits it keeps. -/
theorem Admits.keeps (admits : limit.Admits n) : limit.Keeps n := .inl admits

/-- Closing a limit changes nothing unless it is extreme. -/
theorem keeps_iff_admits (usual : ¬ limit.IsExtreme) : limit.Keeps n ↔ limit.Admits n := by
  simp [Keeps, usual]

/-- The last whole number that a bound leaves is where its limit is closed. -/
theorem closes_bound : Closes limit.side limit.bound n.toInt ↔ limit.Keeps n := by
  -- Both sides become comparisons of integers, of which each lies within 64 bits.
  obtain ⟨side, value, exclusive⟩ := limit
  have least := Int64.le_toInt value
  have greatest := Int64.toInt_lt value
  have least' := Int64.le_toInt n
  have greatest' := Int64.toInt_lt n
  have top : Int64.maxValue.toInt = maxSigned := by decide
  have bottom : Int64.minValue.toInt = minSigned := by decide
  -- Each of the four combinations of side and exclusiveness is one linear statement.
  cases side <;> cases exclusive <;>
    simp only [Closes, bound, Bound.leastInteger, Bound.greatestInteger, Quantity.floor, Quantity.ceil,
      Keeps, Admits, IsExtreme, Int64.le_iff_toInt_le, Int64.lt_iff_toInt_lt, ← Int64.toInt_inj, top,
      bottom, clampSigned, minSigned, maxSigned, reduceIte, Bool.false_eq_true,
      false_and, true_and, or_false] <;>
    omega

/-- The tightest bound that limits state on one side. -/
def tightest (side : Side) (limits : List Limit) : Option Bound :=
  limits.foldl (fun held limit =>
    if limit.side = side then some (Bound.tighter side held limit.bound) else held) none

/-- Whatever a limit keeps lies on the right side of its number, or at it. -/
theorem Keeps.within (keeps : limit.Keeps n) :
    match limit.side with
    | .minimum => limit.value.toInt ≤ n.toInt
    | .maximum => n.toInt ≤ limit.value.toInt := by
  obtain ⟨side, value, exclusive⟩ := limit
  rcases keeps with admits | ⟨-, rfl⟩
  · -- An admitted number lies at the limit or beyond it.
    cases side <;> cases exclusive <;>
      simp only [Admits, Int64.le_iff_toInt_le, Int64.lt_iff_toInt_lt] at admits ⊢ <;> omega
  · -- The number that an extreme limit keeps is the limit's own.
    cases side
    · exact Int.le_refl _
    · exact Int.le_refl _

/-- A tighter limit keeps fewer numbers. -/
theorem Keeps.of_asTight (keeps : limit.Keeps n) (same : limit.side = other.side)
    (tight : limit.bound.AsTight limit.side other.bound) : other.Keeps n := by
  have within := keeps.within
  obtain ⟨side, value, exclusive⟩ := limit
  obtain ⟨side', value', exclusive'⟩ := other
  obtain rfl : side = side' := same
  rcases tight with ⟨_, _, ⟨⟩, ⟨⟩, inside⟩ | ⟨equal, implies⟩
  · -- The limit lies strictly inside the other one, which does not reach the number.
    left
    cases side <;> cases exclusive' <;>
      simp only [Admits, Int64.le_iff_toInt_le, Int64.lt_iff_toInt_lt] at within inside ⊢ <;> omega
  · obtain rfl : value = value' := Int64.toInt_inj.mp (Quantity.whole.inj equal)
    cases exclusive' with
    | false =>
      -- An inclusive limit admits all that lies on the right side of its number.
      left
      cases side
      · exact Int64.le_iff_toInt_le.mpr within
      · exact Int64.le_iff_toInt_le.mpr within
    | true =>
      -- An exclusive limit is only met by the very same one.
      obtain rfl : exclusive = true := implies rfl
      exact keeps

/-- One more limit is taken in if it is on the side. -/
theorem tightest_append (side : Side) (limits : List Limit) (limit : Limit) :
    tightest side (limits ++ [limit]) =
      if limit.side = side then some (Bound.tighter side (tightest side limits) limit.bound)
      else tightest side limits := by
  simp only [tightest, List.foldl_append, List.foldl_cons, List.foldl_nil]

/-- The bound that is kept is the tightest of those stated. -/
theorem tightest_tightest (side : Side) (limits : List Limit) :
    Bound.Tightest side (fun bound => ∃ limit ∈ limits, limit.side = side ∧ limit.bound = bound)
      (tightest side limits) := by
  -- The fold takes the limits from the first to the last, so the induction adds them at the end.
  induction limits using List.reverseRecOn with
  | nil => exact fun _ ⟨_, member, _⟩ => absurd member List.not_mem_nil
  | append_singleton limits limit ih =>
    have whole (bound : Bound)
        (stated : ∃ limit ∈ limits, limit.side = side ∧ limit.bound = bound) : bound.IsWhole := by
      obtain ⟨stated, -, -, rfl⟩ := stated
      exact ⟨_, rfl⟩
    rw [tightest_append]
    split
    · -- The limit is on the side, so it competes with the tightest one before.
      rename_i same
      have stated : (fun bound => ∃ stated ∈ limits ++ [limit],
            stated.side = side ∧ stated.bound = bound) =
          fun bound => (∃ stated ∈ limits, stated.side = side ∧ stated.bound = bound) ∨
            bound = limit.bound := by
        funext bound
        simp only [List.mem_append, List.mem_singleton, or_and_right, exists_or, exists_eq_left,
          same, true_and, eq_comm (a := limit.bound)]
      rw [stated]
      exact Bound.tightest_tighter ih whole ⟨_, rfl⟩
    · -- A limit on the other side adds no bound.
      rename_i apart
      have stated : (fun bound => ∃ stated ∈ limits ++ [limit],
            stated.side = side ∧ stated.bound = bound) =
          fun bound => ∃ stated ∈ limits, stated.side = side ∧ stated.bound = bound := by
        funext bound
        simp only [List.mem_append, List.mem_singleton, or_and_right, exists_or, exists_eq_left,
          apart, false_and, or_false]
      rw [stated]
      exact ih

/-- A number lies within the tightest bound of a side if all limits of that side keep it. -/
theorem closes_tightest {side : Side} {limits : List Limit} :
    (∀ bound, tightest side limits = some bound → Closes side bound n.toInt) ↔
      ∀ limit ∈ limits, limit.side = side → limit.Keeps n := by
  have tightest := tightest_tightest side limits
  cases held : Limit.tightest side limits with
  | none =>
    rw [held] at tightest
    -- Nothing is kept, so no limit of the side was stated.
    refine ⟨fun _ limit member same => absurd ⟨limit, member, same, rfl⟩ (tightest limit.bound), ?_⟩
    simp
  | some bound =>
    rw [held] at tightest
    obtain ⟨⟨first, member, same, rfl⟩, tight⟩ := tightest
    constructor
    · -- Every other limit is less tight than the one whose bound is kept.
      intro closes limit member' same'
      have keeps : first.Keeps n := closes_bound.mp (same ▸ closes _ rfl)
      exact keeps.of_asTight (same.trans same'.symm) (same ▸ tight _ ⟨limit, member', same', rfl⟩)
    · -- The bound that is kept is that of one of the limits.
      rintro keeps _ ⟨⟩
      rw [← same]
      exact closes_bound.mpr (keeps first member same)

/-- Nothing is kept if no limit is stated on a side, and only then. -/
theorem tightest_eq_none {side : Side} {limits : List Limit} :
    tightest side limits = none ↔ ∀ limit ∈ limits, limit.side ≠ side := by
  have tightest := tightest_tightest side limits
  cases held : Limit.tightest side limits with
  | none =>
    rw [held] at tightest
    -- Nothing is kept, and whatever is stated would have been.
    exact iff_of_true rfl fun limit member same => tightest limit.bound ⟨limit, member, same, rfl⟩
  | some bound =>
    rw [held] at tightest
    obtain ⟨⟨first, member, same, -⟩, -⟩ := tightest
    -- What is kept was stated by some limit of the side.
    exact iff_of_false (Option.some_ne_none _) fun none => none first member same

end Limit

/-- A schema on whole numbers. -/
inductive WholeSchema where
  /-- Nothing is stated. -/
  | any
  /-- The type is integer. -/
  | integer
  | limit (stated : Limit)
  /-- Keywords beside each other, or branches that are all met. -/
  | both (first second : WholeSchema)
  | negation (body : WholeSchema)
deriving DecidableEq, Repr

namespace WholeSchema

/-- All of several schemas. -/
def all (parts : List WholeSchema) : WholeSchema := parts.foldr both any

/-- Whether a number is valid. -/
def Admits (n : Int64) : WholeSchema → Prop
  | any => True
  -- Every number here is an integer, so the type admits all of them.
  | integer => True
  | limit stated => stated.Admits n
  -- Keywords beside each other are all met, those inside a negation as one.
  | both first second => first.Admits n ∧ second.Admits n
  | negation body => ¬ body.Admits n

instance decidableAdmits (n : Int64) : (schema : WholeSchema) → Decidable (schema.Admits n)
  | any => isTrue trivial
  | integer => isTrue trivial
  | limit stated => inferInstanceAs (Decidable (stated.Admits n))
  | both first second =>
    -- The parts are decided first, and the whole from them.
    have := decidableAdmits n first
    have := decidableAdmits n second
    inferInstanceAs (Decidable (_ ∧ _))
  | negation body =>
    have := decidableAdmits n body
    inferInstanceAs (Decidable (¬ _))

/-- The limits that stand behind an even number of negations, or behind an odd one. -/
def limits (odd : Bool) : WholeSchema → List Limit
  | any => []
  | integer => []
  | limit stated => if odd then [] else [stated]
  -- The order is that in which a survey comes upon them.
  | both first second => first.limits odd ++ second.limits odd
  -- A negation exchanges the sides.
  | negation body => body.limits !odd

/-- Whether the type stands behind an even number of negations, or behind an odd one. -/
def isTyped (odd : Bool) : WholeSchema → Bool
  | any => false
  | integer => !odd
  | limit _ => false
  | both first second => first.isTyped odd || second.isTyped odd
  | negation body => body.isTyped !odd

/-- The number of negations. -/
def negations : WholeSchema → Nat
  | any => 0
  | integer => 0
  | limit _ => 0
  | both first second => first.negations + second.negations
  | negation body => body.negations + 1

/-- The number of negations that stand inside each other. -/
def depth : WholeSchema → Nat
  | any => 0
  | integer => 0
  | limit _ => 0
  | both first second => max first.depth second.depth
  | negation body => body.depth + 1

/-- Whether the limits on one side let a number pass, taken together: on the first side it is within all
of them, and on the other it is beyond one, if there are any. -/
def PassesSide (n : Int64) (schema : WholeSchema) : Bool → Prop
  | false => ∀ limit ∈ schema.limits false, limit.Keeps n
  | true => schema.limits true ≠ [] → ∃ limit ∈ schema.limits true, ¬ limit.Keeps n

/-- Whether a number passes the limits of both sides. Limits only count where the type is stated, and the
second side has the type of the first. -/
structure Passes (n : Int64) (schema : WholeSchema) : Prop where
  inside : schema.isTyped false = true → schema.PassesSide n false
  beyond : schema.isTyped false = true ∨ schema.isTyped true = true → schema.PassesSide n true

instance (n : Int64) (schema : WholeSchema) (side : Bool) : Decidable (schema.PassesSide n side) :=
  match side with
  | false => inferInstanceAs (Decidable (∀ limit ∈ schema.limits false, limit.Keeps n))
  | true => inferInstanceAs (Decidable (_ → ∃ limit ∈ schema.limits true, ¬ limit.Keeps n))

instance (n : Int64) (schema : WholeSchema) : Decidable (schema.Passes n) :=
  decidable_of_iff ((schema.isTyped false = true → schema.PassesSide n false) ∧
    (schema.isTyped false = true ∨ schema.isTyped true = true → schema.PassesSide n true))
    ⟨fun both => ⟨both.1, both.2⟩, fun passes => ⟨passes.inside, passes.beyond⟩⟩

/-- The schema seen from the record that it is merged into: behind a negation or not. -/
def under (odd : Bool) (schema : WholeSchema) : WholeSchema :=
  if odd then negation schema else schema

/-- Whether two schemas state the same on both sides. -/
structure SameSides (a b : WholeSchema) : Prop where
  limits : ∀ odd, a.limits odd = b.limits odd
  isTyped : ∀ odd, a.isTyped odd = b.isTyped odd

variable {schema first second third : WholeSchema} {odd side : Bool} {n : Int64}

/-- Behind a negation the sides are exchanged. -/
@[simp] theorem limits_under : (schema.under odd).limits side = schema.limits (side ^^ odd) := by
  cases odd <;> simp [under, limits]

@[simp] theorem isTyped_under : (schema.under odd).isTyped side = schema.isTyped (side ^^ odd) := by
  cases odd <;> simp [under, isTyped]

@[simp] theorem limits_both :
    (first.both second).limits side = first.limits side ++ second.limits side := rfl

@[simp] theorem isTyped_both :
    (first.both second).isTyped side = (first.isTyped side || second.isTyped side) := rfl

/-- Nothing stated adds nothing. -/
theorem sameSides_both_any : SameSides first (first.both (any.under odd)) :=
  ⟨fun _ => by simp [limits], fun _ => by simp [isTyped]⟩

/-- Two schemas behind a negation state what they state there one after the other. -/
theorem sameSides_both_both :
    SameSides ((first.both (second.under odd)).both (third.under odd))
      (first.both ((second.both third).under odd)) :=
  ⟨fun _ => by simp, fun _ => by simp [Bool.or_assoc]⟩

/-- A negation behind a negation is on the first side again. -/
theorem sameSides_both_negation :
    SameSides (first.both (schema.under !odd)) (first.both (schema.negation.under odd)) :=
  ⟨fun _ => by simp [limits], fun _ => by simp [isTyped]⟩

/-- Without negations, all limits stand on the first side, and those decide. -/
theorem admits_iff_of_depth_eq_zero (flat : schema.depth = 0) :
    schema.limits true = [] ∧ (schema.Admits n ↔ ∀ limit ∈ schema.limits false, limit.Admits n) := by
  induction schema with
  | any => simp [limits, Admits]
  | integer => simp [limits, Admits]
  | limit stated => simp [limits, Admits]
  | both first second ih ih' =>
    -- Neither part has a negation, so both list their limits on the first side.
    obtain ⟨zero, zero'⟩ := Nat.max_eq_zero_iff.mp flat
    -- All limits are met just if those of either part are.
    simp [limits, Admits, ih zero, ih' zero', or_imp, forall_and]
  | negation body ih => cases flat

/-- Where no negation stands inside another one, a valid number is within all limits outside and beyond
one inside. -/
theorem Admits.of_depth_le_one (admits : schema.Admits n) (shallow : schema.depth ≤ 1) :
    (∀ limit ∈ schema.limits false, limit.Admits n) ∧
      (schema.limits true ≠ [] → ∃ limit ∈ schema.limits true, ¬ limit.Admits n) := by
  induction schema with
  | any => simp [limits]
  | integer => simp [limits]
  | limit stated => simpa [limits, Admits] using admits
  | both first second ih ih' =>
    -- Neither part nests negations, so what is known of them is put together.
    obtain ⟨shallow, shallow'⟩ := Nat.max_le.mp shallow
    obtain ⟨inside, beyond⟩ := ih admits.1 shallow
    obtain ⟨inside', beyond'⟩ := ih' admits.2 shallow'
    refine ⟨fun limit member => (List.mem_append.mp member).elim (inside limit) (inside' limit),
      fun stated => ?_⟩
    -- One of the two states a limit behind its negation.
    by_cases empty : first.limits true = []
    · obtain ⟨limit, member, outside⟩ := beyond' fun empty' => stated (by simp [limits, empty, empty'])
      exact ⟨limit, List.mem_append_right _ member, outside⟩
    · obtain ⟨limit, member, outside⟩ := beyond empty
      exact ⟨limit, List.mem_append_left _ member, outside⟩
  | negation body ih =>
    -- Inside the negation there is no other one, so its limits alone decide.
    have flat : body.depth = 0 := by simpa [depth] using shallow
    obtain ⟨none, decides⟩ := admits_iff_of_depth_eq_zero (n := n) flat
    refine ⟨fun limit member => ?_, fun _ => ?_⟩
    · rw [limits, Bool.not_false, none] at member
      cases member
    · have fails : ¬ ∀ limit ∈ body.limits false, limit.Admits n := fun all => admits (decides.mpr all)
      simpa [limits] using fails

/-- A depth is at most the number of negations. -/
theorem depth_le_negations (schema : WholeSchema) : schema.depth ≤ schema.negations := by
  induction schema with
  | any => exact Nat.le_refl _
  | integer => exact Nat.le_refl _
  | limit stated => exact Nat.le_refl _
  -- The deeper of two parts is no deeper than both together.
  | both first second ih ih' => simp only [depth, negations]; omega
  | negation body ih => exact Nat.succ_le_succ ih

/-- With one negation at most, a number that is within all limits outside, and beyond one inside if there
is a negation, is valid. -/
theorem admits_of_negations_le_one (single : schema.negations ≤ 1)
    (inside : ∀ limit ∈ schema.limits false, limit.Admits n)
    (beyond : schema.negations = 1 → ∃ limit ∈ schema.limits true, ¬ limit.Admits n) :
    schema.Admits n := by
  induction schema with
  | any => trivial
  | integer => trivial
  | limit stated => exact inside stated (by simp [limits])
  | both first second ih ih' =>
    -- At most one of the parts has the negation.
    simp only [negations] at single beyond
    simp only [limits, List.mem_append] at inside beyond
    -- The limit beyond which the number lies is in the part that has the negation.
    have absent (part : WholeSchema) (none : part.negations = 0) : part.limits true = [] :=
      (admits_iff_of_depth_eq_zero (n := n)
        (Nat.le_zero.mp (none ▸ part.depth_le_negations))).1
    refine ⟨ih (by omega) (fun limit member => inside limit (.inl member)) fun one => ?_,
      ih' (by omega) (fun limit member => inside limit (.inr member)) fun one => ?_⟩
    · obtain ⟨limit, member, outside⟩ := beyond (by omega)
      rw [absent second (by omega)] at member
      exact ⟨limit, member.resolve_right List.not_mem_nil, outside⟩
    · obtain ⟨limit, member, outside⟩ := beyond (by omega)
      rw [absent first (by omega)] at member
      exact ⟨limit, member.resolve_left List.not_mem_nil, outside⟩
  | negation body ih =>
    have none : body.negations = 0 := by simpa [negations] using single
    -- This is the only negation, so the body is flat.
    have flat : body.depth = 0 := Nat.le_zero.mp (none ▸ body.depth_le_negations)
    obtain ⟨limit, member, outside⟩ := beyond (by simp [negations, none])
    -- The body admits no number that lies beyond one of its limits.
    intro admits
    exact outside ((admits_iff_of_depth_eq_zero flat).2.mp admits limit member)

/-- A schema whose merged limits mean what it says: its type is stated outside, at most one negation
stands in it, which states a limit, and no limit excludes the last number there is. -/
structure IsPlain (schema : WholeSchema) : Prop where
  typed : schema.isTyped false = true
  single : schema.negations ≤ 1
  stated : schema.negations = 1 → schema.limits true ≠ []
  usual : ∀ odd, ∀ limit ∈ schema.limits odd, ¬ limit.IsExtreme

instance (schema : WholeSchema) : Decidable schema.IsPlain :=
  decidable_of_iff (schema.isTyped false = true ∧ schema.negations ≤ 1 ∧
      (schema.negations = 1 → schema.limits true ≠ []) ∧
      ∀ odd, ∀ limit ∈ schema.limits odd, ¬ limit.IsExtreme)
    ⟨fun ⟨typed, single, stated, usual⟩ => ⟨typed, single, stated, usual⟩,
      fun plain => ⟨plain.typed, plain.single, plain.stated, plain.usual⟩⟩

/-- A valid number passes, unless negations stand inside each other. -/
theorem Admits.passes (admits : schema.Admits n) (shallow : schema.depth ≤ 1)
    (usual : ∀ limit ∈ schema.limits true, ¬ limit.IsExtreme) : schema.Passes n := by
  obtain ⟨inside, beyond⟩ := admits.of_depth_le_one shallow
  -- A limit that is not extreme keeps nothing that it does not admit.
  refine ⟨fun _ limit member => (inside limit member).keeps, fun _ stated => ?_⟩
  obtain ⟨limit, member, outside⟩ := beyond stated
  exact ⟨limit, member, fun keeps =>
    outside ((Limit.keeps_iff_admits (usual limit member)).mp keeps)⟩

/-- With one negation at most, the numbers that pass are those that are valid. -/
theorem IsPlain.passes_iff (plain : schema.IsPlain) : schema.Passes n ↔ schema.Admits n := by
  refine ⟨fun passes => ?_, fun admits => ?_⟩
  · -- What passes is within the closed limits, which are the limits themselves.
    obtain ⟨inside, beyond⟩ := passes
    refine admits_of_negations_le_one plain.single (fun limit member => ?_) fun one => ?_
    · exact (Limit.keeps_iff_admits (plain.usual false limit member)).mp
        (inside plain.typed limit member)
    · obtain ⟨limit, member, outside⟩ := beyond (.inl plain.typed) (plain.stated one)
      exact ⟨limit, member, fun admits => outside admits.keeps⟩
  · -- One negation cannot stand inside another.
    exact admits.passes (Nat.le_trans schema.depth_le_negations plain.single) (plain.usual true)

end WholeSchema

namespace WholeSchema

/-- The schema on whole numbers that a keyword states, with those of the schemas inside it. -/
def ofKeyword? (inner : SchemaId → Option WholeSchema) : Keyword → Option WholeSchema
  | .types [.integer] => some integer
  -- Only bounds within 64 bits are limits; all others are left to bounds in general.
  | .bound side ⟨.whole value, exclusive⟩ =>
    if (Int64.ofInt value).toInt = value then some (limit ⟨side, .ofInt value, exclusive⟩) else none
  | .allOf branches => (branches.mapM inner).map all
  | .negation schema => (inner schema).map negation
  | _ => none

end WholeSchema

/-- The schema on whole numbers that a tree holds, if its keywords are the type integer, limits by signed
64-bit numbers, conjunctions and negations only. -/
def SchemaTree.whole? (tree : SchemaTree) (opened : List SchemaId) (schema : SchemaId) :
    Option WholeSchema :=
  match (tree.schema schema).body with
  | .boolean _ => none
  | .object _ clauses =>
    -- A schema is closed while it is read, as in a visit, so no recursive schema is understood.
    if _isOpen : schema ∈ opened then
      let rest := opened.erase schema
      (clauses.mapM fun clause =>
        WholeSchema.ofKeyword? (fun inner => whole? tree rest inner) clause.keyword).map .all
    else none
termination_by opened.length
decreasing_by exact length_erase_lt _isOpen

end SchemaClasses
