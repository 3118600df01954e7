import SchemaClasses.Proofs.Absorption
import SchemaClasses.Proofs.Json
import SchemaClasses.Proofs.Survey.Following

/-! What a survey merges into a record is the combination of all keywords that are stated about it,
whatever their order. -/

namespace SchemaClasses

/-- The one value that all values written agree on, or nothing if none is written. -/
def Common {α : Type} [BEq α] (written : α → Prop) : Option α → Prop
  | none => ∀ value, ¬ written value
  | some held => written held ∧ ∀ value, written value → value = held ∨ (value == held) = true

/-- A value that the held one agrees with is one that all agree on. -/
theorem Common.join {α : Type} [BEq α] {written : α → Prop} {current : Option α} {value : α}
    (common : Common written current)
    (trans : ∀ a b c : α, (a == b) = true → (b == c) = true → (a == c) = true)
    (agrees : ∀ held, current = some held → (held == value) = true) :
    Common (fun other => written other ∨ other = value) (some value) := by
  refine ⟨.inr rfl, fun other => ?_⟩
  rintro (before | rfl)
  · -- The value was held by none or by some before.
    cases held : current with
    | none =>
      rw [held] at common
      exact absurd before (common other)
    | some held' =>
      rw [held] at common
      have agrees := agrees held' held
      -- What agreed with the held value agrees with the new one, as equality of values is transitive.
      rcases common.2 other before with rfl | same
      · exact .inr agrees
      · exact .inr (trans other held' value same agrees)
  · exact .inl rfl

/-- The combination of all keywords written: the sets are unions, the limits are the tightest, and
the values are those that all agree on. -/
structure Record.Combines (tree : SchemaTree) (writes : Keyword → Prop) (boolean : Prop)
    (names : List (Option String)) (patterns : List String) (record : Record) : Prop where
  types (type : JsonType) :
    type ∈ record.types ↔ type ≠ .null ∧ ∃ types, writes (.types types) ∧ type ∈ types
  nullable :
    record.nullable = some true ↔
      boolean ∨ (∃ types, writes (.types types) ∧ .null ∈ types) ∨
        ∃ branches, (writes (.anyOf branches) ∨ writes (.oneOf branches)) ∧
          (Survey.nullableForm? tree branches).isSome
  required (name : String) :
    name ∈ record.required ↔ ∃ required, writes (.required required) ∧ name ∈ required
  properties (name : Option String) :
    name ∈ names ↔ ∃ entries text schema,
      writes (.properties entries) ∧ (text, schema) ∈ entries ∧ name = some text
  patternProperties (pattern : String) :
    pattern ∈ patterns ↔ ∃ entries schema,
      writes (.patternProperties entries) ∧ (pattern, schema) ∈ entries
  patterns (text : String) : text ∈ record.patterns ↔ writes (.pattern text)
  formats (name : String) : name ∈ record.formats ↔ writes (.format name)
  multipleOf (value : Quantity) : value ∈ record.multipleOf ↔ writes (.multipleOf value)
  least (counted : Countable) :
    Largest (fun n => writes (.minCount counted n)) (record.count counted).least
  greatest (counted : Countable) :
    Smallest (fun n => writes (.maxCount counted n)) (record.count counted).greatest
  bound (side : Side) (whole : ∀ bound, writes (.bound side bound) → bound.IsWhole) :
    Bound.Tightest side (fun bound => writes (.bound side bound)) (record.bound side)
  uniqueItems : record.uniqueItems = true ↔ writes (.uniqueItems true)
  constant : Common (fun value => writes (.constant value)) record.constant
  enumeration : Common (fun values => writes (.enumeration values)) record.enumeration
  default : Common
    (fun value => ∃ json, writes (.default json) ∧ DefaultValue.ofJson? json = some value)
    record.default

/-- Whether a keyword admits null with two branches of which one only admits null. -/
def Keyword.AdmitsNull (tree : SchemaTree) (keyword : Keyword) : Prop :=
  ∃ branches, (keyword = .anyOf branches ∨ keyword = .oneOf branches) ∧
    (Survey.nullableForm? tree branches).isSome

namespace Outline

variable {tree : SchemaTree} {before after : Outline} {location : String} {keyword : Keyword}

/-- What a keyword on the trail makes of an outline. -/
structure TakesClause (tree : SchemaTree) (keyword : Keyword) (before after : Outline)
    (merged : Record) (nullable : Option Bool) : Prop where
  absorbs : before.stated.Absorbs keyword merged
  stated : after.stated = { merged with nullable }
  nulled : nullable = some true ↔ merged.nullable = some true ∨ keyword.AdmitsNull tree
  named (name : Option String) :
    name ∈ after.names ↔ name ∈ before.names ∨ ∃ entries text schema,
      keyword = .properties entries ∧ (text, schema) ∈ entries ∧ name = some text
  patterned (pattern : String) :
    pattern ∈ after.patterns ↔ pattern ∈ before.patterns ∨ ∃ entries schema,
      keyword = .patternProperties entries ∧ (pattern, schema) ∈ entries

end Outline

namespace Record

variable {tree : SchemaTree} {writes : Keyword → Prop} {boolean : Prop} {record : Record}
variable {names : List (Option String)} {patterns : List String}

/-- Nothing written combines to nothing known. -/
theorem combines_nothing : ({} : Record).Combines tree (fun _ => False) False [] [] where
  -- All lists are empty, and no single value is known.
  types := by simp
  nullable := by simp
  required := by simp
  properties := by simp
  patternProperties := by simp
  patterns := by simp
  formats := by simp
  multipleOf := by simp
  least counted := by cases counted <;> exact fun _ written => written
  greatest counted := by cases counted <;> exact fun _ written => written
  bound side _ := by cases side <;> exact fun _ written => written
  uniqueItems := by simp
  constant := fun _ written => written
  enumeration := fun _ written => written
  default := fun _ ⟨_, written, _⟩ => written

/-- A boolean schema admits null and nothing else changes. -/
theorem Combines.admitNull (combines : record.Combines tree writes boolean names patterns) :
    { record with nullable := some true }.Combines tree writes True names patterns :=
  { types := combines.types
    nullable := by simp
    required := combines.required
    properties := combines.properties
    patternProperties := combines.patternProperties
    patterns := combines.patterns
    formats := combines.formats
    multipleOf := combines.multipleOf
    least := combines.least
    greatest := combines.greatest
    bound := combines.bound
    uniqueItems := combines.uniqueItems
    constant := combines.constant
    enumeration := combines.enumeration
    default := combines.default }

/-- Counts do not depend on whether null is admitted. -/
theorem count_nullable {nullable : Option Bool} {counted : Countable} :
    { record with nullable }.count counted = record.count counted := by
  cases counted <;> rfl

/-- Bounds do not depend on whether null is admitted. -/
theorem bound_nullable {nullable : Option Bool} {side : Side} :
    { record with nullable }.bound side = record.bound side := by
  cases side <;> rfl

end Record

/-- A keyword on the trail joins the combination. -/
theorem Outline.TakesClause.combines {tree : SchemaTree} {writes : Keyword → Prop} {boolean : Prop}
    {keyword : Keyword} {before after : Outline} {merged : Record} {nullable : Option Bool}
    (takes : TakesClause tree keyword before after merged nullable)
    (combines : before.stated.Combines tree writes boolean before.names before.patterns) :
    after.stated.Combines tree (fun other => writes other ∨ other = keyword) boolean after.names
      after.patterns := by
  obtain ⟨absorbs, stated, nulled, named, patterned⟩ := takes
  rw [stated]
  constructor
  -- What is collected from all keywords gains what this one states, if it states that at all.
  case types =>
    intro type
    rw [absorbs.mem_types, combines.types]
    grind
  case nullable =>
    rw [nulled, absorbs.nullable_iff, combines.nullable, Keyword.AdmitsNull]
    grind
  case required =>
    intro name
    rw [absorbs.mem_required, combines.required]
    grind
  case properties =>
    intro name
    rw [named, combines.properties]
    grind
  case patternProperties =>
    intro pattern
    rw [patterned, combines.patternProperties]
    grind
  case patterns =>
    intro text
    rw [absorbs.mem_patterns, combines.patterns, eq_comm]
  case formats =>
    intro name
    rw [absorbs.mem_formats, combines.formats, eq_comm]
  case multipleOf =>
    intro value
    rw [absorbs.mem_multipleOf, combines.multipleOf, eq_comm]
  case uniqueItems => rw [absorbs.uniqueItems_iff, combines.uniqueItems, eq_comm]
  -- A limit is the tightest one of all, which is this one or that from before.
  case least =>
    intro counted
    have held := combines.least counted
    rw [Record.count_nullable]
    -- The keyword raises the least count, lowers the greatest, or leaves counts alone.
    rcases absorbs.count counted with ⟨least, rfl, same⟩ | ⟨most, rfl, same⟩ | ⟨same, noLeast, -⟩
    · simpa [same] using CountRange.largest_raise held
    · simpa [same, CountRange.lower] using held
    · simpa [same, (noLeast _).symm] using held
  case greatest =>
    intro counted
    have held := combines.greatest counted
    rw [Record.count_nullable]
    rcases absorbs.count counted with ⟨least, rfl, same⟩ | ⟨most, rfl, same⟩ | ⟨same, -, noMost⟩
    · simpa [same, CountRange.raise] using held
    · simpa [same] using CountRange.smallest_lower held
    · simpa [same, (noMost _).symm] using held
  case bound =>
    intro side whole
    -- What was written before is among what is written now, so its bounds are whole.
    have held := combines.bound side fun bound written => whole bound (.inl written)
    rw [Record.bound_nullable]
    rcases absorbs.bound_eq side with ⟨bound, rfl, same⟩ | ⟨same, noBound⟩
    · simpa [same] using Bound.tightest_tighter held
        (fun other written => whole other (.inl written)) (whole bound (.inr rfl))
    · simpa [same, (noBound _).symm] using held
  -- A single value has to agree with the one from before.
  case constant =>
    -- The constant is this one, which agrees with the others, or the one from before.
    rcases absorbs.constant_eq with ⟨value, rfl, same, agrees⟩ | ⟨same, noConstant⟩
    · simpa [same] using combines.constant.join (fun _ _ _ => Json.same_trans) agrees
    · simpa [same, (noConstant _).symm] using combines.constant
  case enumeration =>
    rcases absorbs.enumeration_eq with ⟨values, rfl, same, agrees⟩ | ⟨same, noEnumeration⟩
    · simpa [same] using combines.enumeration.join (fun _ _ _ => Json.list_beq_trans) agrees
    · simpa [same, (noEnumeration _).symm] using combines.enumeration
  case default =>
    -- Defaults are compared by what they represent.
    rcases absorbs.default_eq with ⟨value, incoming, rfl, represented, same, agrees⟩ | ⟨same, noDefault⟩
    · have joined := combines.default.join (fun _ _ _ => DefaultValue.same_trans) agrees
      simp only [same]
      convert joined using 2 with other
      grind
    · simpa [same, (noDefault _).symm] using combines.default

namespace Record

variable {tree : SchemaTree} {writes writes' : Keyword → Prop} {boolean boolean' : Prop}
variable {names : List (Option String)} {patterns : List String} {record : Record}

/-- The combination depends only on what is written. -/
theorem Combines.congr (combines : record.Combines tree writes boolean names patterns)
    (same : ∀ keyword, writes keyword ↔ writes' keyword) (same' : boolean ↔ boolean') :
    record.Combines tree writes' boolean' names patterns := by
  obtain rfl : writes = writes' := funext fun keyword => propext (same keyword)
  obtain rfl : boolean = boolean' := propext same'
  exact combines

/-- What combines in the statements of a record combines in the record. -/
theorem Combines.of_stated (combines : record.stated.Combines tree writes boolean names patterns) :
    record.Combines tree writes boolean names patterns :=
  { types := combines.types
    nullable := combines.nullable
    required := combines.required
    properties := combines.properties
    patternProperties := combines.patternProperties
    patterns := combines.patterns
    formats := combines.formats
    multipleOf := combines.multipleOf
    least := fun counted => by cases counted <;> exact combines.least _
    greatest := fun counted => by cases counted <;> exact combines.greatest _
    bound := fun side => by cases side <;> exact combines.bound _
    uniqueItems := combines.uniqueItems
    constant := combines.constant
    enumeration := combines.enumeration
    default := combines.default }

end Record

namespace SchemaTree

/-- Whether a keyword stands in one of the schemas that describe the same value as a root. -/
def Writes (tree : SchemaTree) (root : SchemaId) (keyword : Keyword) : Prop :=
  ∃ schema, tree.JoinsTo root schema ∧
    ∃ clause ∈ (tree.schema schema).clauses, clause.keyword = keyword

end SchemaTree

end SchemaClasses
