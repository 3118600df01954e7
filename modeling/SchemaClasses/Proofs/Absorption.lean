import SchemaClasses.Proofs.Record

/-! What absorbing one keyword does to each part of what a record states. -/

namespace SchemaClasses

/-- New values one after the other. -/
theorem mem_foldl_addNew {α : Type} [BEq α] [LawfulBEq α] {added values : List α} {other : α} :
    other ∈ added.foldl addNew values ↔ other ∈ values ∨ other ∈ added := by
  induction added generalizing values with
  | nil => simp
  | cons value rest ih => rw [List.foldl_cons, ih, mem_addNew, List.mem_cons, or_assoc]

/-- The largest of the numbers written, or nothing if there are none. -/
def Largest (written : Nat → Prop) : Option Nat → Prop
  | none => ∀ n, ¬ written n
  | some held => written held ∧ ∀ n, written n → n ≤ held

/-- The smallest of the numbers written, or nothing if there are none. -/
def Smallest (written : Nat → Prop) : Option Nat → Prop
  | none => ∀ n, ¬ written n
  | some held => written held ∧ ∀ n, written n → held ≤ n

namespace CountRange

variable {written : Nat → Prop} {range : CountRange} {n : Nat}

/-- A range that is raised keeps the largest limit. -/
theorem largest_raise (largest : Largest written range.least) :
    Largest (fun m => written m ∨ m = n) (range.raise n).least := by
  unfold raise
  cases held : range.least with
  | none => simp_all [Largest]
  | some m =>
    simp only [held, Largest] at largest ⊢
    -- The larger one of the two limits is written, and no other written one lies above it.
    refine ⟨?_, fun other => ?_⟩
    · rcases Nat.le_total m n with below | below
      · exact .inr (Nat.max_eq_right below)
      · exact .inl ((Nat.max_eq_left below).symm ▸ largest.1)
    · rintro (before | rfl)
      · exact Nat.le_trans (largest.2 other before) (Nat.le_max_left _ _)
      · exact Nat.le_max_right _ _

/-- A range that is lowered keeps the smallest limit. -/
theorem smallest_lower (smallest : Smallest written range.greatest) :
    Smallest (fun m => written m ∨ m = n) (range.lower n).greatest := by
  unfold lower
  cases held : range.greatest with
  | none => simp_all [Smallest]
  | some m =>
    simp only [held, Smallest] at smallest ⊢
    -- The smaller one of the two limits is written, and no other written one lies below it.
    refine ⟨?_, fun other => ?_⟩
    · rcases Nat.le_total m n with below | below
      · exact .inl ((Nat.min_eq_left below).symm ▸ smallest.1)
      · exact .inr (Nat.min_eq_right below)
    · rintro (before | rfl)
      · exact Nat.le_trans (Nat.min_le_left _ _) (smallest.2 other before)
      · exact Nat.min_le_right _ _

end CountRange

namespace Bound

/-- Whether a bound is by a whole number. -/
def IsWhole (bound : Bound) : Prop := ∃ n, bound.value = .whole n

/-- Whether a bound is tighter than another by its value, for whole numbers. -/
def Inside (side : Side) (held other : Bound) : Prop :=
  ∃ n m, held.value = .whole n ∧ other.value = .whole m ∧
    match side with
    | .minimum => m < n
    | .maximum => n < m

/-- Whether a bound is as tight as another; at one value an exclusive bound is tighter than an
inclusive one. -/
def AsTight (side : Side) (held other : Bound) : Prop :=
  held.Inside side other ∨
    held.value = other.value ∧ (other.exclusive = true → held.exclusive = true)

/-- The tightest of the bounds written, or nothing if there are none. -/
def Tightest (side : Side) (written : Bound → Prop) : Option Bound → Prop
  | none => ∀ bound, ¬ written bound
  | some held => written held ∧ ∀ bound, written bound → held.AsTight side bound

/-- The tighter of two bounds on a side. -/
def tighter (side : Side) (current : Option Bound) (incoming : Bound) : Bound :=
  match side with
  | .minimum => tighterMinimum current incoming
  | .maximum => tighterMaximum current incoming

variable {side : Side} {a b c held incoming : Bound}

theorem AsTight.refl (side : Side) (bound : Bound) : bound.AsTight side bound :=
  .inr ⟨rfl, fun exclusive => exclusive⟩

theorem AsTight.trans (first : a.AsTight side b) (second : b.AsTight side c) : a.AsTight side c := by
  -- Each step either moves the value inwards or keeps it, and one move inwards is enough.
  rcases first with ⟨n, m, whole, whole', inside⟩ | ⟨same, exclusive⟩
  · rcases second with ⟨n', m', held, held', inside'⟩ | ⟨same, -⟩
    · obtain rfl : m = n' := by
        rw [whole'] at held
        exact Quantity.whole.inj held
      refine .inl ⟨n, m', whole, held', ?_⟩
      cases side
      · exact Int.lt_trans inside' inside
      · exact Int.lt_trans inside inside'
    · exact .inl ⟨n, m, whole, same ▸ whole', inside⟩
  · -- Where both steps keep the value, an exclusive bound in the end was required from the first
    -- on.
    rcases second with ⟨n, m, whole, whole', inside⟩ | ⟨same', exclusive'⟩
    · exact .inl ⟨n, m, same ▸ whole, whole', inside⟩
    · exact .inr ⟨same.trans same', fun last => exclusive (exclusive' last)⟩

/-- The tighter of two bounds by whole numbers is one of them and as tight as both. -/
theorem tighter_some (side : Side) (whole : held.IsWhole) (whole' : incoming.IsWhole) :
    (tighter side (some held) incoming = held ∨ tighter side (some held) incoming = incoming) ∧
      (tighter side (some held) incoming).AsTight side held ∧
      (tighter side (some held) incoming).AsTight side incoming := by
  obtain ⟨n, value⟩ := whole
  obtain ⟨m, value'⟩ := whole'
  -- The incoming bound replaces the held one if it lies inside, or at its value if it is exclusive.
  have inside (tight : incoming.AsTight side held) :
      (incoming = held ∨ incoming = incoming) ∧ incoming.AsTight side held ∧
        incoming.AsTight side incoming := ⟨.inr rfl, tight, .refl side incoming⟩
  have outside (tight : held.AsTight side incoming) :
      (held = held ∨ held = incoming) ∧ held.AsTight side held ∧ held.AsTight side incoming :=
    ⟨.inl rfl, .refl side held, tight⟩
  cases side with
  -- A lower bound lies inside if its value is greater, so only the comparison is mirrored.
  | minimum =>
    simp only [tighter, tighterMinimum, value, value', Quantity.cmp, beq_iff_eq,
      Int.compare_eq_gt, Quantity.whole.injEq]
    split
    · exact inside (.inl ⟨m, n, value', value, ‹_›⟩)
    · split
      · exact inside (.inr ⟨by rw [value, value', (‹m = n ∧ _›).1], fun _ => (‹m = n ∧ _›).2⟩)
      · -- Neither greater nor equal and exclusive: the held bound is at least as tight.
        refine outside ?_
        by_cases same : m = n
        · exact .inr ⟨by rw [value, value', same], by simp_all⟩
        · exact .inl ⟨n, m, value, value', by dsimp only; omega⟩
  | maximum =>
    simp only [tighter, tighterMaximum, value, value', Quantity.cmp, beq_iff_eq,
      Int.compare_eq_lt, Quantity.whole.injEq]
    split
    · exact inside (.inl ⟨m, n, value', value, ‹_›⟩)
    · split
      · exact inside (.inr ⟨by rw [value, value', (‹m = n ∧ _›).1], fun _ => (‹m = n ∧ _›).2⟩)
      · refine outside ?_
        by_cases same : m = n
        · exact .inr ⟨by rw [value, value', same], by simp_all⟩
        · exact .inl ⟨n, m, value, value', by dsimp only; omega⟩

/-- A bound that is taken in keeps the tightest. -/
theorem tightest_tighter {written : Bound → Prop} {current : Option Bound}
    (tightest : Tightest side written current) (whole : ∀ bound, written bound → bound.IsWhole)
    (whole' : incoming.IsWhole) :
    Tightest side (fun bound => written bound ∨ bound = incoming)
      (some (tighter side current incoming)) := by
  cases current with
  -- Without a bound so far, the incoming one is the only one written.
  | none =>
    have first : tighter side none incoming = incoming := by cases side <;> rfl
    rw [first]
    refine ⟨.inr rfl, ?_⟩
    rintro bound (before | rfl)
    · exact absurd before (tightest bound)
    · exact .refl side bound
  | some held =>
    -- The tighter one of the two was written, and it is as tight as the held one was to all others.
    obtain ⟨stands, tight⟩ := tightest
    obtain ⟨either, asHeld, asIncoming⟩ :=
      tighter_some side (whole held stands) whole'
    refine ⟨?_, ?_⟩
    · rcases either with same | same
      · rw [same]
        exact .inl stands
      · exact .inr same
    · -- A bound from before is bounded by the held one, so tightness is chained through it.
      rintro bound (before | rfl)
      · exact asHeld.trans (tight bound before)
      · exact asIncoming

end Bound

/-- Whether a keyword holds schemas and states nothing else. -/
@[grind =]
def Keyword.HoldsSchemas : Keyword → Prop
  | reference .. | properties _ | patternProperties _ | additionalProperties _ | items _ => True
  | allOf _ | anyOf _ | oneOf _ | negation _ => True
  | _ => False

namespace Record

/-- The range of what a count keyword counts. -/
def count (record : Record) : Countable → CountRange
  | .length => record.length
  | .items => record.itemCount
  | .properties => record.propertyCount

/-- The bound on a side. -/
def bound (record : Record) : Side → Option Bound
  | .minimum => record.minimum
  | .maximum => record.maximum

variable {record merged : Record} {location : String} {keyword : Keyword}

/-- The range of what a count keyword counts, changed. -/
def updateCount (record : Record) (change : CountRange → CountRange) (counted : Countable) : Record :=
  { record with
    length := if counted = .length then change record.length else record.length
    itemCount := if counted = .items then change record.itemCount else record.itemCount
    propertyCount :=
      if counted = .properties then change record.propertyCount else record.propertyCount }

/-- The bound on a side, set. -/
def setBound (record : Record) (bound : Bound) (side : Side) : Record :=
  { record with
    minimum := if side = .minimum then some bound else record.minimum
    maximum := if side = .maximum then some bound else record.maximum }

/-- What a keyword can make of a record that absorbs it. -/
inductive Absorbs (record : Record) : Keyword → Record → Prop where
  | types (names : List JsonType) {types : List JsonType} {nullable : Option Bool}
      (typed : ∀ type, type ∈ types ↔ type ∈ record.types ∨ type ≠ .null ∧ type ∈ names)
      (nulled : nullable = some true ↔ record.nullable = some true ∨ .null ∈ names) :
      Absorbs record (.types names) { record with types, nullable }
  | constant (value : Json)
      (agrees : ∀ held, record.constant = some held → (held == value) = true) :
      Absorbs record (.constant value) { record with constant := some value }
  | enumeration (values : List Json)
      (agrees : ∀ held, record.enumeration = some held → (held == values) = true) :
      Absorbs record (.enumeration values) { record with enumeration := some values }
  | format (name : String) :
      Absorbs record (.format name) { record with formats := addNew record.formats name }
  | pattern (text : String) :
      Absorbs record (.pattern text) { record with patterns := addNew record.patterns text }
  | bound (side : Side) (bound : Bound) :
      Absorbs record (.bound side bound)
        (record.setBound (Bound.tighter side (record.bound side) bound) side)
  | multipleOf (value : Quantity) :
      Absorbs record (.multipleOf value)
        { record with multipleOf := addNew record.multipleOf value }
  | minCount (counted : Countable) (least : Nat) :
      Absorbs record (.minCount counted least) (record.updateCount (·.raise least) counted)
  | maxCount (counted : Countable) (most : Nat) :
      Absorbs record (.maxCount counted most) (record.updateCount (·.lower most) counted)
  | uniqueItems (unique : Bool) :
      Absorbs record (.uniqueItems unique)
        { record with uniqueItems := record.uniqueItems || unique }
  | default (value : Json) {incoming : DefaultValue}
      (represented : DefaultValue.ofJson? value = some incoming)
      (agrees : ∀ held, record.default = some held → (held == incoming) = true) :
      Absorbs record (.default value) { record with default := some incoming }
  | examples (values examples : List Json) :
      Absorbs record (.examples values) { record with examples }
  | required (names : List String) :
      Absorbs record (.required names)
        { record with required := names.foldl addNew record.required }
  | extension (name : String) (value : Json) (extensions : List (String × Json)) :
      Absorbs record (.extension name value) { record with extensions }
  | inner {keyword : Keyword} (holdsSchemas : keyword.HoldsSchemas) :
      Absorbs record keyword record

/-- Types added one after the other. -/
theorem foldl_addType (names : List JsonType) (record : Record) :
    ∃ types nullable, names.foldl addType record = { record with types, nullable } ∧
      (∀ type, type ∈ types ↔ type ∈ record.types ∨ type ≠ .null ∧ type ∈ names) ∧
      (nullable = some true ↔ record.nullable = some true ∨ .null ∈ names) := by
  induction names generalizing record with
  | nil => exact ⟨record.types, record.nullable, rfl, by simp, by simp⟩
  | cons name rest ih =>
    -- One name is taken off, and the rest is added to the record that has it.
    obtain ⟨types, nullable, same, typed, nulled⟩ := ih (record.addType name)
    refine ⟨types, nullable, ?_, fun type => ?_, ?_⟩
    · rw [List.foldl_cons, same]
      unfold addType
      split <;> rfl
    · -- Null is no type of its own: it only makes the record nullable.
      rw [typed, List.mem_cons, addType]
      split
      · grind
      · simp only [mem_addNew]
        grind
    · rw [nulled, List.mem_cons, addType]
      split <;> grind

/-- Examples added one after the other. -/
theorem foldl_addExample (values : List Json) (record : Record) :
    values.foldl addExample record =
      { record with examples := values.foldl addNew record.examples } := by
  induction values generalizing record with
  | nil => rfl
  | cons value rest ih => rw [List.foldl_cons, ih]; rfl

/-- Required names added one after the other. -/
theorem foldl_addRequired (names : List String) (record : Record) :
    names.foldl addRequired record =
      { record with required := names.foldl addNew record.required } := by
  induction names generalizing record with
  | nil => rfl
  | cons name rest ih => rw [List.foldl_cons, ih]; rfl

/-- A record that absorbs a keyword does so in one of these ways. -/
theorem absorbs_of_absorb (absorbed : record.absorb location keyword = .ok merged) :
    record.Absorbs keyword merged := by
  -- Each keyword is one case, and it is absorbed in the way that the relation names.
  unfold absorb at absorbed
  split at absorbed
  case h_1 names =>
    cases absorbed
    obtain ⟨types, nullable, same, typed, nulled⟩ := foldl_addType names record
    rw [same]
    exact .types names typed nulled
  case h_2 value =>
    obtain ⟨agrees, rfl⟩ := setConstant_eq_ok.mp absorbed
    exact .constant value agrees
  case h_3 values =>
    obtain ⟨agrees, rfl⟩ := setEnumeration_eq_ok.mp absorbed
    exact .enumeration values agrees
  case h_4 name => cases absorbed; exact .format name
  case h_5 text => cases absorbed; exact .pattern text
  case h_6 bound => cases absorbed; exact .bound .minimum bound
  case h_7 bound => cases absorbed; exact .bound .maximum bound
  case h_8 value => cases absorbed; exact .multipleOf value
  case h_9 least => cases absorbed; exact .minCount .length least
  case h_10 least => cases absorbed; exact .minCount .items least
  case h_11 least => cases absorbed; exact .minCount .properties least
  case h_12 most => cases absorbed; exact .maxCount .length most
  case h_13 most => cases absorbed; exact .maxCount .items most
  case h_14 most => cases absorbed; exact .maxCount .properties most
  case h_15 unique => cases absorbed; exact .uniqueItems unique
  case h_16 value =>
    obtain ⟨incoming, represented, agrees, rfl⟩ := setDefault_eq_ok.mp absorbed
    exact .default value represented agrees
  case h_17 values =>
    cases absorbed
    rw [foldl_addExample]
    exact .examples values _
  case h_18 names =>
    cases absorbed
    rw [foldl_addRequired]
    exact .required names
  case h_19 name value => cases absorbed; exact .extension name value _
  case h_20 =>
    cases absorbed
    -- What is left over has to be a keyword with schemas inside, as all others were cases.
    refine .inner ?_
    cases keyword with
    | bound side => cases side <;> simp_all
    | minCount counted => cases counted <;> simp_all
    | maxCount counted => cases counted <;> simp_all
    | _ => simp_all [Keyword.HoldsSchemas]

/-- The types after a keyword; null is not among them. -/
theorem Absorbs.mem_types (absorbs : record.Absorbs keyword merged) {type : JsonType} :
    type ∈ merged.types ↔ 
      type ∈ record.types ∨ type ≠ .null ∧ ∃ types, keyword = .types types ∧ type ∈ types := by
  cases absorbs with
  | types names typed nulled => simp [typed]
  | inner holdsSchemas => grind
  | _ => simp [setBound, updateCount]

/-- Whether null is admitted after a keyword. -/
theorem Absorbs.nullable_iff (absorbs : record.Absorbs keyword merged) :
    merged.nullable = some true ↔ 
      record.nullable = some true ∨ ∃ types, keyword = .types types ∧ .null ∈ types := by
  cases absorbs with
  | types names typed nulled => simp [nulled]
  | inner holdsSchemas => grind
  | _ => simp [setBound, updateCount]

/-- The required names after a keyword. -/
theorem Absorbs.mem_required (absorbs : record.Absorbs keyword merged) {name : String} :
    name ∈ merged.required ↔ 
      name ∈ record.required ∨ ∃ required, keyword = .required required ∧ name ∈ required := by
  cases absorbs with
  | inner holdsSchemas => grind
  | _ => simp [mem_foldl_addNew, setBound, updateCount]

/-- The patterns after a keyword. -/
theorem Absorbs.mem_patterns (absorbs : record.Absorbs keyword merged) {text : String} :
    text ∈ merged.patterns ↔ text ∈ record.patterns ∨ keyword = .pattern text := by
  cases absorbs with
  | inner holdsSchemas => grind
  | _ => simp [mem_addNew, setBound, updateCount, eq_comm]

/-- The formats after a keyword. -/
theorem Absorbs.mem_formats (absorbs : record.Absorbs keyword merged) {name : String} :
    name ∈ merged.formats ↔ name ∈ record.formats ∨ keyword = .format name := by
  cases absorbs with
  | inner holdsSchemas => grind
  | _ => simp [mem_addNew, setBound, updateCount, eq_comm]

/-- The divisors after a keyword. -/
theorem Absorbs.mem_multipleOf (absorbs : record.Absorbs keyword merged) {value : Quantity} :
    value ∈ merged.multipleOf ↔ value ∈ record.multipleOf ∨ keyword = .multipleOf value := by
  cases absorbs with
  | inner holdsSchemas => grind
  | _ => simp [mem_addNew, setBound, updateCount, eq_comm]

/-- Whether items are unique after a keyword. -/
theorem Absorbs.uniqueItems_iff (absorbs : record.Absorbs keyword merged) :
    merged.uniqueItems = true ↔ record.uniqueItems = true ∨ keyword = .uniqueItems true := by
  cases absorbs with
  | inner holdsSchemas => grind
  | _ => simp [setBound, updateCount]

/-- The counts after a keyword: a limit joins them, or they stay. -/
theorem Absorbs.count (absorbs : record.Absorbs keyword merged) (counted : Countable) :
    (∃ least, keyword = .minCount counted least ∧
        merged.count counted = (record.count counted).raise least) ∨
      (∃ most, keyword = .maxCount counted most ∧
        merged.count counted = (record.count counted).lower most) ∨
      merged.count counted = record.count counted ∧
        (∀ least, keyword ≠ .minCount counted least) ∧ ∀ most, keyword ≠ .maxCount counted most := by
  -- A limit only changes the count that it counts, so the two kinds are compared.
  cases absorbs with
  | inner holdsSchemas => grind
  | minCount other least => cases counted <;> cases other <;> simp [updateCount, Record.count]
  | maxCount other most => cases counted <;> cases other <;> simp [updateCount, Record.count]
  | _ => cases counted <;> simp [setBound, Record.count]

/-- The bounds after a keyword: a bound joins them, or they stay. -/
theorem Absorbs.bound_eq (absorbs : record.Absorbs keyword merged) (side : Side) :
    (∃ bound, keyword = .bound side bound ∧
        merged.bound side = some (Bound.tighter side (record.bound side) bound)) ∨
      merged.bound side = record.bound side ∧ ∀ bound, keyword ≠ .bound side bound := by
  cases absorbs with
  | inner holdsSchemas => grind
  | bound other bound => cases side <;> cases other <;> simp [setBound, Record.bound]
  | _ => cases side <;> simp [updateCount, Record.bound]

/-- The constant after a keyword: one that the held one agrees with, or the held one. -/
theorem Absorbs.constant_eq (absorbs : record.Absorbs keyword merged) :
    (∃ value, keyword = .constant value ∧ merged.constant = some value ∧
        ∀ held, record.constant = some held → (held == value) = true) ∨
      merged.constant = record.constant ∧ ∀ value, keyword ≠ .constant value := by
  cases absorbs with
  | inner holdsSchemas => grind
  | constant value agrees => exact .inl ⟨value, rfl, rfl, agrees⟩
  | _ => simp [setBound, updateCount]

/-- The enumeration after a keyword: one that the held one agrees with, or the held one. -/
theorem Absorbs.enumeration_eq (absorbs : record.Absorbs keyword merged) :
    (∃ values, keyword = .enumeration values ∧ merged.enumeration = some values ∧
        ∀ held, record.enumeration = some held → (held == values) = true) ∨
      merged.enumeration = record.enumeration ∧ ∀ values, keyword ≠ .enumeration values := by
  cases absorbs with
  | inner holdsSchemas => grind
  | enumeration values agrees => exact .inl ⟨values, rfl, rfl, agrees⟩
  | _ => simp [setBound, updateCount]

/-- The default after a keyword: one that the held one agrees with, or the held one. -/
theorem Absorbs.default_eq (absorbs : record.Absorbs keyword merged) :
    (∃ value incoming, keyword = .default value ∧ DefaultValue.ofJson? value = some incoming ∧
        merged.default = some incoming ∧
        ∀ held, record.default = some held → (held == incoming) = true) ∨
      merged.default = record.default ∧ ∀ value, keyword ≠ .default value := by
  cases absorbs with
  -- A keyword with schemas inside states no default.
  | inner holdsSchemas => grind
  | default value represented agrees => exact .inl ⟨value, _, rfl, represented, rfl, agrees⟩
  | _ => simp [setBound, updateCount]

end Record

end SchemaClasses
