import SchemaClasses.Proofs.Planning.Testing

/-! The checks on texts: together they let through what the lengths, the patterns, and a constant and allowed
values of texts let through. -/

namespace SchemaClasses

/-- What checks demand of a text, given what it means to match a pattern. -/
def textDemands (isMatch : String → String → Prop) (text : String) : Demands
  | .lengthRange, some (.countRange least greatest), _ =>
    (∀ n, least = some n → n ≤ text.length) ∧ ∀ n, greatest = some n → text.length ≤ n
  | .lengthConst, some (.count n), _ => text.length = n
  | .pattern, _, some (.text pattern) => isMatch pattern text
  | .constString, _, some (.text value) => text = value
  | .enumString, _, some (.texts values) => text ∈ values
  | _, _, _ => False

/-- A value is a text if it is read as that text. -/
theorem Json.text?_eq_some {value : Json} {text : String} : value.text? = some text ↔ value = .string text := by
  cases value <;> simp [Json.text?]

/-- Whether a count lies in a range that may be open on either side. -/
structure CountRange.Admits (range : CountRange) (n : Nat) : Prop where
  least : ∀ least, range.least = some least → least ≤ n
  greatest : ∀ greatest, range.greatest = some greatest → n ≤ greatest

/-- The check on a range of counts. -/
def CountRange.checks (range : CountRange) (rangeKind constKind : CheckKind) (negated : Bool) :
    List PooledCheck :=
  match range.least, range.greatest with
  | none, none => []
  | some least, some greatest =>
    if least = greatest then [(constKind, negated, some (.count least), none)]
    else [(rangeKind, negated, some (.countRange least greatest), none)]
  | least, greatest => [(rangeKind, negated, some (.countRange least greatest), none)]

namespace Record

variable {record : Record} {isMatch : String → String → Prop} {text : String}

/-- All checks of a record on texts, formats apart. -/
def textChecks (record : Record) : List PooledCheck :=
  record.length.checks .lengthRange .lengthConst record.isNegation
    ++ record.patterns.map (fun pattern => (.pattern, record.isNegation, none, some (.text pattern)))
    ++ record.textConstant?.toList.map
      (fun value => (.constString, record.isNegation, none, some (.text value)))
    ++ record.textEnumeration?.toList.map
      (fun values => (.enumString, record.isNegation, none, some (.texts values)))

/-- Whether a text satisfies the lengths, the patterns, the constant and the allowed values of a record. -/
structure DescribesText (record : Record) (isMatch : String → String → Prop) (text : String) : Prop where
  length : record.length.Admits text.length
  patterns : ∀ pattern ∈ record.patterns, isMatch pattern text
  constant : ∀ value, record.constant = some value → value = .string text
  enumeration : ∀ values, record.enumeration = some values → .string text ∈ values

/-- Whether a text satisfies the lengths and the patterns of a record, the constant if that is a text, and
the allowed values if there is one at least and all are texts. -/
structure ChecksText (record : Record) (isMatch : String → String → Prop) (text : String) : Prop where
  length : record.length.Admits text.length
  patterns : ∀ pattern ∈ record.patterns, isMatch pattern text
  constant : ∀ value, record.textConstant? = some value → text = value
  enumeration : ∀ values, record.textEnumeration? = some values → text ∈ values

/-- A record whose constant, if there is one, is a text, and whose allowed values, if they are listed, are
texts, one at least. -/
structure IsTextual (record : Record) : Prop where
  constant : ∀ value, record.constant = some value → value.text?.isSome
  enumeration : ∀ values, record.enumeration = some values →
    values ≠ [] ∧ ∀ value ∈ values, value.text?.isSome

/-- The texts among the values are those that are read from them. -/
theorem mem_of_mapM_text? {values : List Json} {texts : List String}
    (read : values.mapM Json.text? = some texts) : text ∈ texts ↔ .string text ∈ values := by
  constructor
  · intro member
    -- Every text was read from one of the values, and it is that value.
    obtain ⟨value, member, found⟩ := exists_of_mem_mapM read member
    rw [← Json.text?_eq_some.mp found]
    exact member
  · intro member
    -- Every value that is a text is read as that text.
    obtain ⟨read, member, found⟩ := exists_of_mapM_eq_some read member
    rw [← Option.some_inj.mp found] at member
    exact member

/-- What satisfies a record satisfies what is checked of it. -/
theorem DescribesText.checks (describes : record.DescribesText isMatch text) :
    record.ChecksText isMatch text where
  length := describes.length
  patterns := describes.patterns
  constant value read := by
    obtain ⟨stated, same, found⟩ := Option.bind_eq_some_iff.mp read
    -- The constant that is checked is the one that is stated, as only a text is read.
    rw [describes.constant stated same] at found
    exact Option.some_inj.mp found
  enumeration texts read := by
    -- The texts that are checked were all read from the stated values.
    obtain ⟨values, stated, read⟩ := exists_of_textEnumeration? read
    exact (mem_of_mapM_text? read).mpr (describes.enumeration values stated)

/-- Nothing is left unchecked if only texts are stated. -/
theorem ChecksText.describes (checks : record.ChecksText isMatch text) (textual : record.IsTextual) :
    record.DescribesText isMatch text where
  length := checks.length
  patterns := checks.patterns
  constant value stated := by
    -- A stated constant is a text, so that there is a check for it.
    obtain ⟨read, found⟩ := Option.isSome_iff_exists.mp (textual.constant value stated)
    rw [checks.constant read (Option.bind_eq_some_iff.mpr ⟨value, stated, found⟩)]
    exact Json.text?_eq_some.mp found
  enumeration values stated := by
    -- A list of texts is checked as a whole; any other would have been left out.
    obtain ⟨filled, texts⟩ := textual.enumeration values stated
    obtain ⟨read, found⟩ := exists_mapM_eq_some texts
    exact (mem_of_mapM_text? found).mp
      (checks.enumeration read (textEnumeration?_of_ne_nil stated filled ▸ found))

/-- A text passes the check on a range of lengths where its length lies in the range. -/
theorem isPassed_lengthChecks {range : CountRange} :
    (∀ check ∈ range.checks .lengthRange .lengthConst false, check.IsPassed (textDemands isMatch text)) ↔
      range.Admits text.length := by
  have admits (least greatest : Option Nat) : textDemands isMatch text .lengthRange
      (some (.countRange least greatest)) none ↔ CountRange.Admits ⟨least, greatest⟩ text.length :=
    ⟨fun both => ⟨both.1, both.2⟩, fun both => ⟨both.least, both.greatest⟩⟩
  unfold CountRange.checks
  -- No limit, one of the two, or both: these are the cases of the planned checks.
  obtain ⟨least | least, greatest | greatest⟩ := range
  · exact ⟨fun _ => ⟨nofun, nofun⟩, fun _ => by simp⟩
  · exact List.forall_mem_singleton.trans (admits ..)
  · exact List.forall_mem_singleton.trans (admits ..)
  · dsimp only
    split
    · -- A range of one length holds just that one.
      rename_i same
      subst same
      refine List.forall_mem_singleton.trans ⟨fun exact' => ?_, fun both => ?_⟩
      · have exact' : text.length = least := exact'
        constructor <;> rintro _ ⟨⟩ <;> omega
      · exact Nat.le_antisymm (both.greatest _ rfl) (both.least _ rfl)
    · exact List.forall_mem_singleton.trans (admits ..)

/-- A text passes the checks of a record where it satisfies what is checked. -/
theorem isPassed_textChecks (positive : record.isNegation = false) :
    (∀ check ∈ record.textChecks, check.IsPassed (textDemands isMatch text)) ↔
      record.ChecksText isMatch text := by
  -- Each part of the checks is one part of what is checked.
  simp only [textChecks, List.mem_append, or_imp, forall_and, List.forall_mem_map, Option.mem_toList,
    positive, PooledCheck.isPassed_plain, isPassed_lengthChecks]
  -- The parts are grouped differently on the two sides, and nothing else.
  constructor
  · rintro ⟨⟨⟨length, patterns⟩, constant⟩, enumeration⟩
    exact ⟨length, patterns, constant, enumeration⟩
  · rintro ⟨length, patterns, constant, enumeration⟩
    exact ⟨⟨⟨length, patterns⟩, constant⟩, enumeration⟩

end Record

/-- The parts come one after the other: the lengths, the patterns, the constant and the enumeration, of which
there is one at most. -/
theorem Plan.string_eq {plan : Plan} (location : String) (bare : plan.record.formats = []) :
    plan.string location none =
      plan.record.textEnumeration?.toList.foldl
        (fun plan values => plan.checkConstant .enumString .stringArray (.texts values))
        (plan.record.textConstant?.toList.foldl
          (fun plan value => plan.checkConstant .constString .string (.text value))
          plan.lengths.patterns) := by
  unfold Plan.string
  dsimp only
  -- Without formats the recursion over them ends at once.
  rw [bare, Plan.formats]
  cases plan.record.textConstant? <;> cases plan.record.textEnumeration? <;> rfl

namespace Plan.Gains

variable {plan : Plan} {record : Record}

/-- A range of counts is checked as such or as a constant. -/
theorem counts {range : CountRange} {rangeKind constKind : CheckKind} {negated : Bool}
    (side : plan.record.isNegation = negated) :
    Gains plan (plan.counts range rangeKind constKind) (range.checks rangeKind constKind negated) := by
  unfold Plan.counts CountRange.checks
  -- No limit, one of the two, or both: these are the cases of the planned checks.
  obtain ⟨least | least, greatest | greatest⟩ := range
  · exact refl plan
  · exact check side fun _ => nofun
  · exact check side fun _ => nofun
  · dsimp only
    split
    · exact check side fun _ => nofun
    · exact check side fun _ => nofun

theorem patterns (same : plan.record = record) : Gains plan plan.patterns
    (record.patterns.map fun pattern => (.pattern, record.isNegation, none, some (.text pattern))) := by
  subst same
  exact foldl _ fun before pattern same => (checkConstant (by rw [same])).trans (use .regex)

/-- The checks on texts without a format are those of the record. -/
theorem string (location : String) (bare : plan.record.formats = []) :
    Gains plan (plan.string location none) plan.record.textChecks := by
  rw [string_eq location bare, Record.textChecks]
  -- The parts are planned in this order: lengths, patterns, constant and enumeration.
  have lengths : Gains plan plan.lengths _ := counts rfl
  have patterns : Gains plan.lengths plan.lengths.patterns _ := patterns lengths.record
  have both := lengths.trans patterns
  have constant : Gains plan.lengths.patterns _ (plan.record.textConstant?.toList.map
      fun value => (.constString, plan.record.isNegation, none, some (.text value))) :=
    foldl (fun plan value => plan.checkConstant .constString .string (.text value))
      fun before value same => checkConstant (by rw [same, both.record])
  have all := both.trans constant
  exact all.trans (foldl _ fun before values same => checkConstant (by rw [same, all.record]))

end Plan.Gains

end SchemaClasses
