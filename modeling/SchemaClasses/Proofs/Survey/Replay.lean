import SchemaClasses.Proofs.Equality
import SchemaClasses.Proofs.Survey.Refinement

/-! A keyword that a record has absorbed is absorbed again without any effect, whatever the record has
learnt since, except that constants, enumerations and defaults go through the same values again. -/

namespace SchemaClasses

/-- A value that a list contains does not join it. -/
theorem addNew_of_contains {α : Type} [BEq α] {values : List α} {value : α}
    (known : values.contains value = true) : addNew values value = values := if_pos known

/-- Values that a list contains do not join it. -/
theorem foldl_addNew_of_contains {α : Type} [BEq α] {added values : List α}
    (known : ∀ value ∈ added, values.contains value = true) : added.foldl addNew values = values := by
  induction added with
  | nil => rfl
  | cons value rest ih =>
    rw [List.foldl_cons, addNew_of_contains (known value List.mem_cons_self)]
    exact ih fun other member => known other (List.mem_cons_of_mem _ member)

/-- A list contains what a list at its front contains. -/
theorem contains_of_front {α : Type} [BEq α] {values more : List α} {value : α}
    (front : values <+: more) (known : values.contains value = true) :
    more.contains value = true := by
  obtain ⟨rest, rfl⟩ := front
  rw [List.contains_append, known, Bool.true_or]

/-- A list contains a value that joined it, if the value is equal to itself. -/
theorem contains_addNew {α : Type} [BEq α] {values : List α} {value : α}
    (itself : (value == value) = true) : (addNew values value).contains value = true := by
  unfold addNew
  split
  · assumption
  · simp [List.contains_append, itself]

/-- A list contains all values that joined it, if they are equal to themselves. -/
theorem contains_foldl_addNew {α : Type} [BEq α] {added values : List α} {value : α}
    (member : value ∈ added) (itself : (value == value) = true) :
    (added.foldl addNew values).contains value = true := by
  induction added generalizing values with
  | nil => cases member
  | cons first rest ih =>
    rw [List.foldl_cons]
    -- The value joins first or with one of the others.
    rcases List.mem_cons.mp member with rfl | member
    · have later (others held : List α) : held <+: others.foldl addNew held :=
        List.foldlRecOn others addNew (motive := (held <+: ·)) List.prefix_rfl
          fun _ front other _ => front.trans (prefix_addNew _ other)
      exact contains_of_front (later rest _) (contains_addNew itself)
    · exact ih member

namespace CountRange

/-- A limit that is known already does not raise the range. -/
theorem raise_of_le {range : CountRange} {least kept : Nat} (held : range.least = some kept)
    (below : least ≤ kept) : range.raise least = range := by
  cases range
  simp_all [raise]

/-- A limit that is known already does not lower the range. -/
theorem lower_of_le {range : CountRange} {greatest kept : Nat} (held : range.greatest = some kept)
    (above : kept ≤ greatest) : range.lower greatest = range := by
  cases range
  simp_all [lower]

/-- A range that was raised reaches the limit for good. -/
theorem Narrows.raised {range later : CountRange} {least : Nat}
    (narrows : (range.raise least).Narrows later) :
    ∃ kept, later.least = some kept ∧ least ≤ kept := by
  obtain ⟨kept, held, above⟩ := narrows.least _ rfl
  refine ⟨kept, held, Nat.le_trans ?_ above⟩
  split
  · exact Nat.le_max_right _ _
  · exact Nat.le_refl _

/-- A range that was lowered keeps to the limit for good. -/
theorem Narrows.lowered {range later : CountRange} {greatest : Nat}
    (narrows : (range.lower greatest).Narrows later) :
    ∃ kept, later.greatest = some kept ∧ kept ≤ greatest := by
  obtain ⟨kept, held, below⟩ := narrows.greatest _ rfl
  refine ⟨kept, held, Nat.le_trans below ?_⟩
  split
  · exact Nat.min_le_right _ _
  · exact Nat.le_refl _

end CountRange

/-- Whether the values that a keyword states are such as a document can hold. -/
def Keyword.IsProper : Keyword → Prop
  | .bound _ limit => limit.value.IsProper
  | .constant value => value.isProper = true
  | .enumeration values => ∀ value ∈ values, value.isProper = true
  | .examples values => ∀ value ∈ values, value.isProper = true
  | .extension _ value => value.isProper = true
  | _ => True

/-- Whether a keyword states a constant, an enumeration or a default, for which a later value may stand. -/
def Keyword.StatesValue : Keyword → Prop
  | .constant _ | .enumeration _ | .default _ => True
  | _ => False

namespace Record

/-- A record on a second run, which differs from what it was after the first run at most in a constant,
an enumeration and a default, and these are what the first run had made of them by then. -/
structure Replays (alive : Prop) (earlier final current : Record) : Prop where
  rest : current = { final with
    constant := current.constant
    enumeration := current.enumeration
    default := current.default }
  constant : current.constant = final.constant ∨ alive ∧ current.constant = earlier.constant
  enumeration :
    current.enumeration = final.enumeration ∨ alive ∧ current.enumeration = earlier.enumeration
  default : current.default = final.default ∨ alive ∧ current.default = earlier.default

/-- Two records with the same constant, enumeration and default. -/
structure SameValues (record other : Record) : Prop where
  constant : other.constant = record.constant
  enumeration : other.enumeration = record.enumeration
  default : other.default = record.default

variable {alive alive' : Prop} {record merged final current earlier later : Record}
variable {location : String} {keyword : Keyword}

theorem SameValues.refl (record : Record) : record.SameValues record := ⟨rfl, rfl, rfl⟩

/-- The first run goes on without a change of the values. -/
theorem Replays.carry (replays : Replays alive earlier final current) (stillAlive : alive → alive')
    (same : alive → earlier.SameValues later) : Replays alive' later final current where
  rest := replays.rest
  constant := replays.constant.imp_right fun ⟨lives, held⟩ =>
    ⟨stillAlive lives, held.trans (same lives).constant.symm⟩
  enumeration := replays.enumeration.imp_right fun ⟨lives, held⟩ =>
    ⟨stillAlive lives, held.trans (same lives).enumeration.symm⟩
  default := replays.default.imp_right fun ⟨lives, held⟩ =>
    ⟨stillAlive lives, held.trans (same lives).default.symm⟩

/-- Types that a record knows change nothing. -/
theorem foldl_addType_of_known {names : List JsonType}
    (typed : ∀ name ∈ names, name ≠ .null → name ∈ record.types)
    (nulled : .null ∈ names → record.nullable = some true) :
    names.foldl addType record = record := by
  induction names with
  | nil => rfl
  | cons name rest ih =>
    have first : record.addType name = record := by
      unfold addType
      -- The first type is known already, so it adds nothing.
      split
      · rename_i isNull
        rw [← nulled (isNull ▸ List.mem_cons_self)]
      · rename_i isType
        -- Any type but null is in the list already.
        have known := typed name List.mem_cons_self isType
        rw [addNew_of_contains (by simpa using known)]
    rw [List.foldl_cons, first]
    exact ih (fun other member => typed other (List.mem_cons_of_mem _ member))
      fun member => nulled (List.mem_cons_of_mem _ member)

/-- A bound that was taken in is known for good. -/
theorem Refined.tighter_eq {side : Side} {bound : Bound} (refined : merged.Refined final)
    (took : merged.bound side = some (Bound.tighter side (record.bound side) bound))
    (proper : bound.value.IsProper)
    (proper' : ∀ held, record.bound side = some held → held.value.IsProper) :
    some (Bound.tighter side (final.bound side) bound) = final.bound side := by
  -- The bound that was held once is held at the end, and it is as tight as the one that was taken
  -- in.
  obtain ⟨kept, held, tight⟩ := refined.bound side _ took
  have properTook : (Bound.tighter side (record.bound side) bound).value.IsProper :=
    Bound.isProper_tighter proper' proper
  obtain ⟨properKept, tight⟩ := tight properTook
  rw [held]
  exact congrArg some
    ((Bound.spares_tighter side _ bound).tightened tight proper properTook properKept)

/-- Whether a record knows what a keyword states. -/
def Knows (record : Record) : Keyword → Prop
  | .types names => (∀ name ∈ names, name ≠ .null → name ∈ record.types) ∧
      (.null ∈ names → record.nullable = some true)
  | .format name => record.formats.contains name = true
  | .pattern text => record.patterns.contains text = true
  | .bound side bound => some (Bound.tighter side (record.bound side) bound) = record.bound side
  | .multipleOf value => record.multipleOf.contains value = true
  | .minCount counted least => ∃ kept, (record.count counted).least = some kept ∧ least ≤ kept
  | .maxCount counted most => ∃ kept, (record.count counted).greatest = some kept ∧ kept ≤ most
  | .uniqueItems unique => unique = true → record.uniqueItems = true
  | .examples values => ∀ value ∈ values, record.examples.contains value = true
  | .required names => ∀ name ∈ names, record.required.contains name = true
  | .extension name value => record.extensions.contains (name, value) = true
  | .constant _ | .enumeration _ | .default _ => False
  | _ => True

/-- What a record knows it absorbs without a change. -/
theorem absorb_of_knows (knows : record.Knows keyword) : record.absorb location keyword = .ok record := by
  let ok : Record → Except Fault Record := .ok
  -- For each keyword, the list or the number that it would change does not change.
  cases keyword with
  | types names => exact congrArg Except.ok (foldl_addType_of_known knows.1 knows.2)
  | format name =>
    exact congrArg (fun formats => ok { record with formats }) (addNew_of_contains knows)
  | pattern text =>
    exact congrArg (fun patterns => ok { record with patterns }) (addNew_of_contains knows)
  | bound side bound =>
    cases side with
    | minimum => exact congrArg (fun minimum => ok { record with minimum }) knows
    | maximum => exact congrArg (fun maximum => ok { record with maximum }) knows
  | multipleOf value =>
    exact congrArg (fun multipleOf => ok { record with multipleOf }) (addNew_of_contains knows)
  | minCount counted least =>
    -- The least count is not above the one that is held.
    obtain ⟨kept, held, above⟩ := knows
    have same := CountRange.raise_of_le held above
    cases counted with
    | length => exact congrArg (fun length => ok { record with length }) same
    | items => exact congrArg (fun itemCount => ok { record with itemCount }) same
    | properties => exact congrArg (fun propertyCount => ok { record with propertyCount }) same
  | maxCount counted most =>
    obtain ⟨kept, held, below⟩ := knows
    have same := CountRange.lower_of_le held below
    cases counted with
    | length => exact congrArg (fun length => ok { record with length }) same
    | items => exact congrArg (fun itemCount => ok { record with itemCount }) same
    | properties => exact congrArg (fun propertyCount => ok { record with propertyCount }) same
  | uniqueItems unique =>
    have same : (record.uniqueItems || unique) = record.uniqueItems := by
      -- Unique items are known wherever they are asked for.
      cases unique with
      | false => exact Bool.or_false _
      | true => rw [Bool.or_true, knows rfl]
    exact congrArg (fun uniqueItems => ok { record with uniqueItems }) same
  | examples values =>
    exact (congrArg Except.ok (foldl_addExample values record)).trans
      (congrArg (fun examples => ok { record with examples }) (foldl_addNew_of_contains knows))
  | required names =>
    exact (congrArg Except.ok (foldl_addRequired names record)).trans
      (congrArg (fun required => ok { record with required }) (foldl_addNew_of_contains knows))
  | extension name value =>
    exact congrArg (fun extensions => ok { record with extensions }) (addNew_of_contains knows)
  | constant | enumeration | default => exact knows.elim
  | _ => rfl

/-- A record that has absorbed a keyword knows what it states for good, unless this is a value. -/
theorem knows_of_absorb (states : ¬ keyword.StatesValue) (proper : keyword.IsProper)
    (bounded : ∀ side held, record.bound side = some held → held.value.IsProper)
    (absorbed : record.absorb location keyword = .ok merged) (refined : merged.Refined final) :
    final.Knows keyword := by
  -- What was absorbed is in the merged record, and the final one refines this.
  have absorbs := absorbs_of_absorb absorbed
  cases keyword with
  | types names =>
    refine ⟨fun name member isType => ?_, fun member => ?_⟩
    · exact refined.lists.types.subset (absorbs.mem_types.mpr (.inr ⟨isType, names, rfl, member⟩))
    · exact refined.nullable (absorbs.nullable_iff.mpr (.inr ⟨names, rfl, member⟩))
  | format name =>
    have listed : name ∈ merged.formats := absorbs.mem_formats.mpr (.inr rfl)
    exact contains_of_front refined.lists.formats (List.contains_iff_mem.mpr listed)
  | pattern text =>
    have listed : text ∈ merged.patterns := absorbs.mem_patterns.mpr (.inr rfl)
    exact contains_of_front refined.lists.patterns (List.contains_iff_mem.mpr listed)
  | bound side bound =>
    rcases absorbs.bound_eq side with ⟨bound', stated, took⟩ | ⟨-, none⟩
    · -- The bound was taken in, and it is the tighter one for good.
      cases stated
      exact refined.tighter_eq took proper (bounded side)
    · exact absurd rfl (none bound)
  | multipleOf value =>
    have listed : value ∈ merged.multipleOf := absorbs.mem_multipleOf.mpr (.inr rfl)
    exact contains_of_front refined.lists.multipleOf (List.contains_iff_mem.mpr listed)
  | minCount counted least =>
    rcases absorbs.count counted with ⟨least', stated, raised⟩ | ⟨most, stated, -⟩ | ⟨-, none, -⟩
    · cases stated
      -- A count that was raised has only been narrowed since.
      exact (raised ▸ refined.count counted : CountRange.Narrows _ _).raised
    · cases stated
    · exact absurd rfl (none least)
  | maxCount counted most =>
    rcases absorbs.count counted with ⟨least, stated, -⟩ | ⟨most', stated, lowered⟩ | ⟨-, -, none⟩
    · cases stated
    · cases stated
      exact (lowered ▸ refined.count counted : CountRange.Narrows _ _).lowered
    · exact absurd rfl (none most)
  | uniqueItems unique =>
    rintro rfl
    -- A flag that is set stays set.
    exact refined.uniqueItems (absorbs.uniqueItems_iff.mpr (.inr rfl))
  | examples values =>
    -- Values are found again if they are equal to themselves.
    cases absorbed
    rw [foldl_addExample] at refined
    exact fun value member => contains_of_front refined.lists.examples
      (contains_foldl_addNew member (Json.same_refl (proper value member)))
  | required names =>
    intro name member
    -- A required name stays required.
    have listed : name ∈ merged.required := absorbs.mem_required.mpr (.inr ⟨names, rfl, member⟩)
    exact contains_of_front refined.lists.required (List.contains_iff_mem.mpr listed)
  | extension name value =>
    cases absorbed
    -- An entry is found again if its value is equal to itself.
    have itself : ((name, value) == (name, value)) = true := by
      show (name == name && value == value) = true
      rw [beq_self_eq_true, Bool.true_and]
      exact Json.same_refl proper
    exact contains_of_front refined.lists.extensions (contains_addNew itself)
  | constant | enumeration | default => exact states trivial
  | _ => trivial

/-- A keyword that states no value leaves the values alone. -/
theorem Absorbs.sameValues (absorbs : record.Absorbs keyword merged) (states : ¬ keyword.StatesValue) :
    record.SameValues merged := by
  cases absorbs with
  | constant | enumeration | default => exact absurd trivial states
  | _ => exact ⟨rfl, rfl, rfl⟩

/-- What the last record of the first run knows, that of the second run knows as well. -/
theorem Replays.knows (replays : Replays alive earlier final current) (knows : final.Knows keyword) :
    current.Knows keyword := by
  rw [replays.rest]
  cases keyword with
  | bound side => cases side <;> exact knows
  | minCount counted => cases counted <;> exact knows
  | maxCount counted => cases counted <;> exact knows
  | _ => exact knows

/-- A constant is absorbed on a second run as it was on the first. -/
theorem Replays.setConstant {value : Json} (replays : Replays True record final current)
    (proper : value.isProper = true) (absorbed : record.setConstant location value = .ok merged)
    (refined : merged.Refined final) :
    ∃ repeated, current.setConstant location value = .ok repeated ∧
      Replays True merged final repeated := by
  -- The constant agreed with what was held, and it was set.
  obtain ⟨agrees, rfl⟩ := setConstant_eq_ok.mp absorbed
  refine ⟨{ current with constant := some value }, setConstant_eq_ok.mpr ⟨fun held set => ?_, rfl⟩,
    { replays with
      rest := congrArg (fun held : Record => { held with constant := some value }) replays.rest
      constant := .inr ⟨trivial, rfl⟩ }⟩
  -- The one held on the second run is that of the end of the first, or the one it held at this step.
  rcases replays.constant with last | ⟨-, before⟩
  · obtain ⟨kept, set', same⟩ := refined.constant value rfl
    obtain rfl : held = kept := Option.some.inj (set.symm.trans (last.trans set'))
    rcases same with rfl | same
    · exact Json.same_refl proper
    · exact Json.same_symm proper same
  · exact agrees held (before ▸ set)

/-- An enumeration is absorbed on a second run as it was on the first. -/
theorem Replays.setEnumeration {values : List Json} (replays : Replays True record final current)
    (proper : ∀ value ∈ values, value.isProper = true)
    (absorbed : record.setEnumeration location values = .ok merged) (refined : merged.Refined final) :
    ∃ repeated, current.setEnumeration location values = .ok repeated ∧
      Replays True merged final repeated := by
  obtain ⟨agrees, rfl⟩ := setEnumeration_eq_ok.mp absorbed
  refine ⟨{ current with enumeration := some values },
    setEnumeration_eq_ok.mpr ⟨fun held set => ?_, rfl⟩,
    { replays with
      rest := congrArg (fun held : Record => { held with enumeration := some values }) replays.rest
      enumeration := .inr ⟨trivial, rfl⟩ }⟩
  -- The list held now is the final one or the one from this step.
  rcases replays.enumeration with last | ⟨-, before⟩
  · obtain ⟨kept, set', same⟩ := refined.enumeration values rfl
    obtain rfl : held = kept := Option.some.inj (set.symm.trans (last.trans set'))
    rcases same with rfl | same
    · exact Json.list_beq_refl proper
    · exact Json.list_beq_symm proper same
  · exact agrees held (before ▸ set)

/-- A default is absorbed on a second run as it was on the first. -/
theorem Replays.setDefault {value : Json} (replays : Replays True record final current)
    (absorbed : record.setDefault location value = .ok merged) (refined : merged.Refined final) :
    ∃ repeated, current.setDefault location value = .ok repeated ∧
      Replays True merged final repeated := by
  -- The value represents a default, and that agreed with what was held.
  obtain ⟨incoming, represented, agrees, rfl⟩ := setDefault_eq_ok.mp absorbed
  refine ⟨{ current with default := some incoming },
    setDefault_eq_ok.mpr ⟨incoming, represented, fun held set => ?_, rfl⟩,
    { replays with
      rest := congrArg (fun held : Record => { held with default := some incoming }) replays.rest
      default := .inr ⟨trivial, rfl⟩ }⟩
  rcases replays.default with last | ⟨-, before⟩
  · obtain ⟨kept, set', same⟩ := refined.default incoming rfl
    obtain rfl : held = kept := Option.some.inj (set.symm.trans (last.trans set'))
    rcases same with rfl | same
    · exact DefaultValue.same_refl _
    · exact DefaultValue.same_symm same
  · exact agrees held (before ▸ set)

/-- A keyword is absorbed on a second run as it was on the first. -/
theorem Replays.absorb (replays : Replays True record final current) (proper : keyword.IsProper)
    (bounded : ∀ side held, record.bound side = some held → held.value.IsProper)
    (absorbed : record.absorb location keyword = .ok merged) (refined : merged.Refined final) :
    ∃ repeated, current.absorb location keyword = .ok repeated ∧
      Replays True merged final repeated := by
  -- Only constants, enumerations and defaults are compared with what is held.
  by_cases states : keyword.StatesValue
  · cases keyword with
    | constant value => exact replays.setConstant proper absorbed refined
    | enumeration values => exact replays.setEnumeration proper absorbed refined
    | default value => exact replays.setDefault absorbed refined
    | _ => exact states.elim
  · -- All other keywords are known by now, so the record stays as it is.
    refine ⟨current, absorb_of_knows (replays.knows (knows_of_absorb states proper bounded absorbed
      refined)), replays.carry (fun lives => lives) fun _ => ?_⟩
    exact (absorbs_of_absorb absorbed).sameValues states

end Record

end SchemaClasses
