import SchemaClasses.Proofs.Json
import SchemaClasses.Proofs.Run
import SchemaClasses.Proofs.Survey.Frame
import SchemaClasses.Proofs.Tightening

/-! Merging only refines: whatever a survey merges and wherever it stops, what was known about a
value stays known, its lists grow at their ends, and its limits become tighter. -/

namespace SchemaClasses

/-- A value that is set once stays. -/
def Lasts {α : Type} (before after : Option α) : Prop :=
  ∀ held, before = some held → after = some held

/-- A value that is set once gives way to an equal one at most. -/
def Persists {α : Type} [BEq α] (before after : Option α) : Prop :=
  ∀ held, before = some held → ∃ kept, after = some kept ∧ (kept = held ∨ (held == kept) = true)

theorem Lasts.refl {α : Type} (value : Option α) : Lasts value value := fun _ set => set

theorem Lasts.trans {α : Type} {a b c : Option α} (first : Lasts a b) (second : Lasts b c) :
    Lasts a c := fun held set => second held (first held set)

/-- What was not set before may be anything. -/
theorem Lasts.of_none {α : Type} {before after : Option α} (unset : before = none) :
    Lasts before after := by
  intro held set
  rw [unset] at set
  cases set

/-- The first of two values is kept. -/
theorem Lasts.orElse {α : Type} (held other : Option α) : Lasts held (held <|> other) := by
  rintro value rfl
  rfl

theorem Persists.refl {α : Type} [BEq α] (value : Option α) : Persists value value :=
  fun held set => ⟨held, set, .inl rfl⟩

theorem Persists.trans {α : Type} [BEq α] {a b c : Option α} (first : Persists a b)
    (second : Persists b c)
    (beq : ∀ x y z : α, (x == y) = true → (y == z) = true → (x == z) = true) : Persists a c := by
  intro held set
  obtain ⟨middle, set', same⟩ := first held set
  obtain ⟨kept, set'', same'⟩ := second middle set'
  -- The value that is set in the end may differ in form from the first one, so equality up to form
  -- has to compose.
  refine ⟨kept, set'', ?_⟩
  rcases same with rfl | same
  · exact same'
  · rcases same' with rfl | same'
    · exact .inr same
    · exact .inr (beq held middle kept same same')

/-- A value that agrees with the held one takes its place. -/
theorem Persists.of_agrees {α : Type} [BEq α] {before : Option α} {value : α}
    (agrees : ∀ held, before = some held → (held == value) = true) : Persists before (some value) :=
  fun held set => ⟨value, rfl, .inr (agrees held set)⟩

/-- A new item joins a list at its end. -/
theorem prefix_addNew {α : Type} [BEq α] (values : List α) (value : α) :
    values <+: addNew values value := by
  unfold addNew
  split
  · exact List.prefix_rfl
  · exact List.prefix_append values [value]

/-- A later range of counts admits no count that an earlier one did not. -/
structure CountRange.Narrows (before after : CountRange) : Prop where
  least : ∀ held, before.least = some held → ∃ kept, after.least = some kept ∧ held ≤ kept
  greatest : ∀ held, before.greatest = some held → ∃ kept, after.greatest = some kept ∧ kept ≤ held

namespace CountRange.Narrows

variable {a b c range : CountRange}

theorem refl (range : CountRange) : range.Narrows range :=
  ⟨fun held set => ⟨held, set, Nat.le_refl _⟩, fun held set => ⟨held, set, Nat.le_refl _⟩⟩

theorem trans (first : a.Narrows b) (second : b.Narrows c) : a.Narrows c := by
  constructor
  · intro held set
    -- A limit that is lower than one that was lowered already is lower than the first.
    obtain ⟨middle, set', lower⟩ := first.least held set
    obtain ⟨kept, set'', lower'⟩ := second.least middle set'
    exact ⟨kept, set'', Nat.le_trans lower lower'⟩
  · intro held set
    obtain ⟨middle, set', upper⟩ := first.greatest held set
    obtain ⟨kept, set'', upper'⟩ := second.greatest middle set'
    exact ⟨kept, set'', Nat.le_trans upper' upper⟩

theorem raise (range : CountRange) (least : Nat) : range.Narrows (range.raise least) := by
  refine ⟨fun held set => ?_, (refl range).greatest⟩
  simp [CountRange.raise, set]

theorem lower (range : CountRange) (greatest : Nat) : range.Narrows (range.lower greatest) := by
  refine ⟨(refl range).least, fun held set => ?_⟩
  simp [CountRange.lower, set]

end CountRange.Narrows

/-- A bound that is held is kept, or a tighter one in its place. -/
def Bound.Stays (side : Side) (before after : Option Bound) : Prop :=
  ∀ held, before = some held → ∃ kept, after = some kept ∧
    (held.value.IsProper → kept.value.IsProper ∧ Tightened side held kept)

namespace Bound.Stays

variable {side : Side} {a b c : Option Bound}

theorem refl (side : Side) (bound : Option Bound) : Stays side bound bound :=
  fun held set => ⟨held, set, fun proper => ⟨proper, .refl side held⟩⟩

theorem trans (first : Stays side a b) (second : Stays side b c) : Stays side a c := by
  intro held set
  obtain ⟨middle, set', tight⟩ := first held set
  obtain ⟨kept, set'', tight'⟩ := second middle set'
  -- The tightness of a step is only known for a proper bound, and the first step hands on that the
  -- middle one is.
  refine ⟨kept, set'', fun proper => ?_⟩
  obtain ⟨proper', tight⟩ := tight proper
  obtain ⟨proper'', tight'⟩ := tight' proper'
  exact ⟨proper'', tight.trans tight' proper proper' proper''⟩

/-- A proper bound that is taken in. -/
theorem tighter (current : Option Bound) {incoming : Bound} (proper : incoming.value.IsProper) :
    Stays side current (some (Bound.tighter side current incoming)) := by
  rintro held rfl
  refine ⟨_, rfl, fun proper' => ⟨?_, tightened_tighter proper' proper⟩⟩
  refine isProper_tighter (fun other set => ?_) proper
  obtain rfl := Option.some.inj set
  exact proper'

end Bound.Stays

namespace AdditionalProperties

/-- How much is settled about additional properties. -/
def rank : Option AdditionalProperties → Nat
  | none => 0
  | some allowed => 1
  | some (schema _) => 2
  | some forbidden => 3

theorem rank_eq_zero {additional : Option AdditionalProperties} :
    rank additional = 0 ↔ additional = none := by
  cases additional with
  | none => simp [rank]
  | some held => cases held <;> simp [rank]

theorem rank_eq_three {additional : Option AdditionalProperties} :
    rank additional = 3 ↔ additional = some forbidden := by
  cases additional with
  | none => simp [rank]
  | some held => cases held <;> simp [rank]

theorem rank_le_three (additional : Option AdditionalProperties) : rank additional ≤ 3 := by
  cases additional with
  | none => simp [rank]
  | some held => cases held <;> simp [rank]

/-- What is settled about additional properties only moves upwards, and the record that stands for
them stays the same. -/
structure Rises (before after : Option AdditionalProperties) : Prop where
  rank_le : rank before ≤ rank after
  same : ∀ held kept, before = some (schema held) → after = some (schema kept) → kept = held

namespace Rises

variable {a b c : Option AdditionalProperties}

theorem refl (additional : Option AdditionalProperties) : Rises additional additional := by
  refine ⟨Nat.le_refl _, fun held kept set set' => ?_⟩
  rw [set] at set'
  cases set'
  rfl

/-- Nothing lies between a record for additional properties and the same. -/
theorem trans (first : Rises a b) (second : Rises b c) : Rises a c := by
  refine ⟨Nat.le_trans first.rank_le second.rank_le, ?_⟩
  rintro held kept rfl rfl
  -- Ranks only grow, so the middle rank is squeezed between two equal ones.
  have lower := first.rank_le
  have upper := second.rank_le
  cases b with
  | none => simp [rank] at lower
  | some middle =>
    cases middle with
    | allowed => simp [rank] at lower
    | forbidden => simp [rank] at upper
    -- A record stays the same in each step, so it does over both.
    | schema record => exact (second.same record kept rfl rfl).trans (first.same held record rfl rfl)

theorem forbid (additional : Option AdditionalProperties) : Rises additional (some .forbidden) :=
  ⟨rank_le_three additional, fun _ _ _ impossible => by cases impossible⟩

/-- What is not settled may become anything. -/
theorem of_none (after : Option AdditionalProperties) : Rises none after :=
  ⟨Nat.zero_le _, fun _ _ impossible => by cases impossible⟩

/-- Additional properties that are allowed may get a schema. -/
theorem of_allowed (record : RecordId) : Rises (some .allowed) (some (.schema record)) :=
  ⟨by simp [rank], fun _ _ impossible => by cases impossible⟩

end Rises

end AdditionalProperties

namespace Record

/-- All lists of a record grow at their ends. -/
structure Extended (before after : Record) : Prop where
  types : before.types <+: after.types
  patterns : before.patterns <+: after.patterns
  formats : before.formats <+: after.formats
  required : before.required <+: after.required
  multipleOf : before.multipleOf <+: after.multipleOf
  examples : before.examples <+: after.examples
  extensions : before.extensions <+: after.extensions
  properties : before.properties <+: after.properties
  patternProperties : before.patternProperties <+: after.patternProperties
  oneOf : before.oneOf <+: after.oneOf

/-- A later record knows all that an earlier one knew, or something tighter in its place. -/
structure Refined (before after : Record) : Prop where
  origin : before.SameOrigin after
  lists : before.Extended after
  bound (side : Side) : Bound.Stays side (before.bound side) (after.bound side)
  count (counted : Countable) : (before.count counted).Narrows (after.count counted)
  constant : Persists before.constant after.constant
  enumeration : Persists before.enumeration after.enumeration
  default : Persists before.default after.default
  nullable : before.nullable = some true → after.nullable = some true
  uniqueItems : before.uniqueItems = true → after.uniqueItems = true
  title : Lasts before.title after.title
  description : Lasts before.description after.description
  items : Lasts before.items after.items
  negation : Lasts before.negation after.negation
  target : Lasts before.target after.target
  additional : AdditionalProperties.Rises before.additional after.additional

variable {a b c record merged : Record} {location : String} {keyword : Keyword}

theorem Extended.refl (record : Record) : record.Extended record :=
  ⟨List.prefix_rfl, List.prefix_rfl, List.prefix_rfl, List.prefix_rfl, List.prefix_rfl,
    List.prefix_rfl, List.prefix_rfl, List.prefix_rfl, List.prefix_rfl, List.prefix_rfl⟩

theorem Extended.trans (first : a.Extended b) (second : b.Extended c) : a.Extended c where
  types := first.types.trans second.types
  patterns := first.patterns.trans second.patterns
  formats := first.formats.trans second.formats
  required := first.required.trans second.required
  multipleOf := first.multipleOf.trans second.multipleOf
  examples := first.examples.trans second.examples
  extensions := first.extensions.trans second.extensions
  properties := first.properties.trans second.properties
  patternProperties := first.patternProperties.trans second.patternProperties
  oneOf := first.oneOf.trans second.oneOf

theorem Refined.refl (record : Record) : record.Refined record where
  origin := .refl record
  lists := .refl record
  bound side := .refl side _
  count _ := .refl _
  constant := .refl _
  enumeration := .refl _
  default := .refl _
  nullable nulled := nulled
  uniqueItems unique := unique
  title := .refl _
  description := .refl _
  items := .refl _
  negation := .refl _
  target := .refl _
  additional := .refl _

theorem Refined.trans (first : a.Refined b) (second : b.Refined c) : a.Refined c where
  -- Every list is extended by both steps, and every field persists through both.
  origin := first.origin.trans second.origin
  lists := first.lists.trans second.lists
  bound side := (first.bound side).trans (second.bound side)
  count counted := (first.count counted).trans (second.count counted)
  constant := first.constant.trans second.constant fun _ _ _ => Json.same_trans
  enumeration := first.enumeration.trans second.enumeration fun _ _ _ => Json.list_beq_trans
  default := first.default.trans second.default fun _ _ _ => DefaultValue.same_trans
  nullable nulled := second.nullable (first.nullable nulled)
  uniqueItems unique := second.uniqueItems (first.uniqueItems unique)
  title := first.title.trans second.title
  description := first.description.trans second.description
  items := first.items.trans second.items
  negation := first.negation.trans second.negation
  target := first.target.trans second.target
  additional := first.additional.trans second.additional

/-- A type joins the types at their end, or makes the value nullable. -/
theorem extended_addType (record : Record) (type : JsonType) :
    record.Extended (record.addType type) := by
  unfold addType
  split
  · exact { Extended.refl record with }
  · exact { Extended.refl record with types := prefix_addNew _ _ }

/-- A loop of steps that extend a record extends it. -/
theorem extended_foldl {α : Type} (step : Record → α → Record)
    (extends' : ∀ (held : Record) item, held.Extended (step held item)) (items : List α)
    (record : Record) : record.Extended (items.foldl step record) :=
  List.foldlRecOn items step (motive := record.Extended) (.refl record)
    fun _ extended item _ => extended.trans (extends' _ item)

/-- A keyword extends the lists of a record. -/
theorem extended_absorb (absorbed : record.absorb location keyword = .ok merged) :
    record.Extended merged := by
  unfold absorb at absorbed
  split at absorbed
  case h_1 names => cases absorbed; exact extended_foldl addType extended_addType names record
  case h_2 =>
    obtain ⟨-, rfl⟩ := setConstant_eq_ok.mp absorbed
    exact { Extended.refl record with }
  case h_3 =>
    obtain ⟨-, rfl⟩ := setEnumeration_eq_ok.mp absorbed
    exact { Extended.refl record with }
  case h_4 => cases absorbed; exact { Extended.refl record with formats := prefix_addNew _ _ }
  -- A format or a pattern joins its list at the end, unless it is listed already.
  case h_5 => cases absorbed; exact { Extended.refl record with patterns := prefix_addNew _ _ }
  case h_8 => cases absorbed; exact { Extended.refl record with multipleOf := prefix_addNew _ _ }
  case h_16 =>
    obtain ⟨-, -, -, rfl⟩ := setDefault_eq_ok.mp absorbed
    exact { Extended.refl record with }
  case h_17 values =>
    cases absorbed
    -- Several values are added one by one, so the fold extends the list as each step does.
    exact extended_foldl addExample
      (fun held _ => { Extended.refl held with examples := prefix_addNew _ _ }) values record
  case h_18 names =>
    cases absorbed
    exact extended_foldl addRequired
      (fun held _ => { Extended.refl held with required := prefix_addNew _ _ }) names record
  case h_19 => cases absorbed; exact { Extended.refl record with extensions := prefix_addNew _ _ }
  -- All other keywords leave every list as it is.
  all_goals
    cases absorbed
    exact { Extended.refl record with }

/-- A keyword refines a record, if the bound that it may state is proper. -/
theorem refined_absorb (absorbed : record.absorb location keyword = .ok merged)
    (proper : ∀ side bound, keyword = .bound side bound → bound.value.IsProper) :
    record.Refined merged := by
  have absorbs := absorbs_of_absorb absorbed
  -- A keyword leaves alone all that is not stated by keywords.
  have rest := restate_absorb absorbed
  constructor
  case origin =>
    rw [← rest]
    exact ⟨rfl, rfl, rfl, rfl⟩
  case lists => exact extended_absorb absorbed
  case bound =>
    intro side
    -- Each side keeps its bound or takes the tighter one of what was held and what is stated.
    rcases absorbs.bound_eq side with ⟨bound, stated, same⟩ | ⟨same, -⟩
    · rw [same]
      exact .tighter _ (proper side bound stated)
    · rw [same]
      exact .refl side _
  case count =>
    intro counted
    -- A count is raised from below, lowered from above, or left alone.
    rcases absorbs.count counted with ⟨least, -, same⟩ | ⟨most, -, same⟩ | ⟨same, -⟩
    · rw [same]
      exact .raise _ least
    · rw [same]
      exact .lower _ most
    · rw [same]
      exact .refl _
  case constant =>
    -- A constant is set once: a second one has to agree with the first.
    rcases absorbs.constant_eq with ⟨value, -, same, agrees⟩ | ⟨same, -⟩
    · rw [same]
      exact .of_agrees agrees
    · rw [same]
      exact .refl _
  case enumeration =>
    -- So it is with an enumeration.
    rcases absorbs.enumeration_eq with ⟨values, -, same, agrees⟩ | ⟨same, -⟩
    · rw [same]
      exact .of_agrees agrees
    · rw [same]
      exact .refl _
  case default =>
    -- So it is with a default, which is compared with the one that was held.
    rcases absorbs.default_eq with ⟨value, incoming, -, -, same, agrees⟩ | ⟨same, -⟩
    · rw [same]
      exact .of_agrees agrees
    · rw [same]
      exact .refl _
  -- A flag that is set stays set, since absorbing only adds a reason for it.
  case nullable => exact fun nulled => absorbs.nullable_iff.mpr (.inl nulled)
  case uniqueItems => exact fun unique => absorbs.uniqueItems_iff.mpr (.inl unique)
  all_goals
    rw [← rest]
    first
      | exact Lasts.refl _
      | exact AdditionalProperties.Rises.refl _

/-- The target of a reference is noted where there is none yet. -/
theorem refined_target (unset : record.target = none) (target : SchemaId) (references : List String) :
    record.Refined { record with target := some target, references } :=
  { Refined.refl record with
    origin := ⟨rfl, rfl, rfl, rfl⟩
    lists := { Extended.refl record with }
    target := .of_none unset }

/-- The first title and the first description are kept. -/
theorem refined_titles (title description : Option String) :
    record.Refined
      { record with
        title := record.title <|> title
        description := record.description <|> description } :=
  { Refined.refl record with
    -- Titles are no list and no place, so everything else is as it was.
    origin := ⟨rfl, rfl, rfl, rfl⟩
    lists := { Extended.refl record with }
    title := .orElse _ _
    description := .orElse _ _ }

/-- A value may become nullable. -/
theorem refined_nullable : record.Refined { record with nullable := some true } :=
  { Refined.refl record with
    origin := ⟨rfl, rfl, rfl, rfl⟩
    lists := { Extended.refl record with }
    nullable := fun _ => rfl }

/-- What is settled about additional properties moves upwards. -/
theorem refined_additional {additional : Option AdditionalProperties}
    (rises : AdditionalProperties.Rises record.additional additional) :
    record.Refined { record with additional } :=
  { Refined.refl record with
    origin := ⟨rfl, rfl, rfl, rfl⟩
    lists := { Extended.refl record with }
    additional := rises }

/-- A branch joins the branches. -/
theorem refined_branch (branch : RecordId) :
    record.Refined { record with oneOf := record.oneOf ++ [branch] } :=
  { Refined.refl record with
    origin := ⟨rfl, rfl, rfl, rfl⟩
    lists := { Extended.refl record with oneOf := List.prefix_append _ _ } }

/-- A first negation is noted. -/
theorem refined_negation (unset : record.negation = none) (negation : RecordId) :
    record.Refined { record with negation := some negation } :=
  { Refined.refl record with
    origin := ⟨rfl, rfl, rfl, rfl⟩
    lists := { Extended.refl record with }
    negation := .of_none unset }

/-- A property joins the properties. -/
theorem refined_property (property : RecordId) :
    record.Refined { record with properties := record.properties ++ [property] } :=
  { Refined.refl record with
    origin := ⟨rfl, rfl, rfl, rfl⟩
    lists := { Extended.refl record with properties := List.prefix_append _ _ } }

/-- A pattern joins the patterns. -/
theorem refined_patternProperty (entry : PatternProperty) :
    record.Refined { record with patternProperties := record.patternProperties ++ [entry] } :=
  { Refined.refl record with
    origin := ⟨rfl, rfl, rfl, rfl⟩
    lists := { Extended.refl record with patternProperties := List.prefix_append _ _ } }

/-- First items are noted. -/
theorem refined_items (unset : record.items = none) (items : RecordId) :
    record.Refined { record with items := some items } :=
  { Refined.refl record with
    origin := ⟨rfl, rfl, rfl, rfl⟩
    lists := { Extended.refl record with }
    items := .of_none unset }

end Record

/-- Whether a bound is stated in a schema of the tree. -/
def SchemaTree.StatesBound (tree : SchemaTree) (side : Side) (bound : Bound) : Prop :=
  ∃ schema, ∃ clause ∈ (tree.schema schema).clauses, clause.keyword = .bound side bound

/-- What holds of all keywords of all schemas holds of those of any number. -/
theorem SchemaTree.forall_clauses {tree : SchemaTree} {holds : Clause → Prop}
    (each : ∀ schema ∈ tree.schemas.toList, ∀ clause ∈ schema.clauses, holds clause) (id : SchemaId) :
    ∀ clause ∈ (tree.schema id).clauses, holds clause := by
  intro clause member
  -- An identifier beyond the schemas is that of an empty schema, which states nothing.
  unfold SchemaTree.schema Array.getD at member
  split at member
  · exact each _ (Array.getElem_mem_toList _) clause member
  · cases member

/-- A later ledger in which all records are refined, and whose bounds were there or are stated in the
tree. -/
structure Ledger.Refines (tree : SchemaTree) (before after : Ledger) : Prop where
  size_le : before.size ≤ after.size
  record : ∀ id : RecordId, id.index < before.size → (before.record id).Refined (after.record id)
  bound : ∀ (id : RecordId) (side : Side) (held : Bound), (after.record id).bound side = some held →
    (before.record id).bound side = some held ∨ tree.StatesBound side held

namespace Ledger.Refines

variable {tree : SchemaTree} {a b c ledger : Ledger} {id : RecordId}

theorem refl (tree : SchemaTree) (ledger : Ledger) : Refines tree ledger ledger :=
  ⟨Nat.le_refl _, fun _ _ => .refl _, fun _ _ _ set => .inl set⟩

theorem trans (first : Refines tree a b) (second : Refines tree b c) : Refines tree a c where
  size_le := Nat.le_trans first.size_le second.size_le
  record id present :=
    (first.record id present).trans
      (second.record id (Nat.lt_of_lt_of_le present first.size_le))
  bound id side held set := (second.bound id side held set).elim (first.bound id side held) .inr

/-- A record that is refined, with bounds that were there or are stated. -/
theorem update {change : Record → Record}
    (refined : (ledger.record id).Refined (change (ledger.record id)))
    (bound : ∀ side held, (change (ledger.record id)).bound side = some held →
      (ledger.record id).bound side = some held ∨ tree.StatesBound side held) :
    Refines tree ledger (ledger.update id change) where
  size_le := by simp
  record other _ := by
    -- Only one record changes, and all others are trivially refined.
    exact rel_update Record.Refined.refl refined
  bound other side held set := by
    rw [record_update] at set
    split at set
    · -- A bound of the changed record was there or is stated; all other bounds were there.
      rename_i same
      rw [same.1]
      exact bound side held set
    · exact .inl set

/-- A record without bounds joins the ledger. -/
theorem push {added : Record} {grown : Ledger} (size : grown.size = ledger.size + 1)
    (records : ∀ id, grown.record id = if id = ⟨ledger.size⟩ then added else ledger.record id)
    (unbounded : ∀ side, added.bound side = none) : Refines tree ledger grown where
  size_le := by omega
  record other present := by
    -- A record that was there is not the next one.
    rw [records, if_neg (RecordId.ne_next present)]
    exact .refl _
  bound other side held set := by
    rw [records] at set
    split at set
    · -- A bound in the grown ledger cannot be one of the new record, which has none.
      rw [unbounded] at set
      cases set
    · exact .inl set

theorem create (tree : SchemaTree) (ledger : Ledger) (schema : Option SchemaId)
    (name : Option String) : Refines tree ledger (ledger.create schema name).2 :=
  push size_create (fun _ => record_create) fun side => by cases side <;> rfl

/-- A record is created and put into another one, which is refined by that. -/
theorem attach (schema : Option SchemaId) (name : Option String) {change : Record → Record}
    (refined : (ledger.record id).Refined (change (ledger.record id)))
    (unbounded : ∀ record side, (change record).bound side = record.bound side) :
    Refines tree ledger ((ledger.create schema name).2.update id change) := by
  have created := create tree ledger schema name
  -- The new record joins first and has no bounds; only then does the old one change.
  refine ⟨by simp, fun other present => ?_, fun other side held set => ?_⟩
  · rw [record_update]
    split
    · rename_i same
      obtain ⟨rfl, -⟩ := same
      -- The record that changes was there before, so creating another one has left it alone.
      rw [record_create_of_lt present]
      exact refined
    · exact created.record other present
  · -- Filling a place changes no bound, so each is one that stood after the creation.
    refine created.bound other side held ?_
    rw [← set]
    exact (field_update (Record.bound · side) (unbounded _ side)).symm

/-- A record has a negation, or gets one. -/
theorem negation (tree : SchemaTree) (ledger : Ledger) (id : RecordId) :
    Refines tree ledger (ledger.negation id).2 := by
  -- A negation has no negation of its own, and its origin is found without a change.
  cases positive : (ledger.record id).negationOf with
  | some origin =>
    simp only [Ledger.negation, positive]
    exact refl tree ledger
  | none =>
    cases unset : (ledger.record id).negation with
    | some negation =>
      simp only [Ledger.negation, positive, unset]
      exact refl tree ledger
    | none =>
      -- A new mirror is pushed first, and then it is put into the record that it mirrors.
      rw [negation_of_unset positive unset]
      have pushed : Refines tree ledger (ledger.push (ledger.negative id)).2 :=
        push size_push (fun _ => record_push) fun side => by cases side <;> rfl
      refine pushed.trans (update ?_ fun side held set => .inl ?_)
      · -- The record is the same as before, or the new one, which has no negation either.
        refine Record.refined_negation ?_ _
        rw [record_push]
        split
        · rfl
        · exact unset
      · cases side <;> exact set

/-- A property is there, or joins. -/
theorem property (tree : SchemaTree) (ledger : Ledger) (id : RecordId) (name : String)
    (schema : SchemaId) : Refines tree ledger (ledger.property id name schema).2 := by
  unfold Ledger.property
  split
  · exact refl tree ledger
  · exact attach _ _ (Record.refined_property _) fun _ side => by cases side <;> rfl

/-- The value of a pattern is there, or joins. -/
theorem patternProperty (tree : SchemaTree) (ledger : Ledger) (id : RecordId) (pattern : String)
    (schema : SchemaId) : Refines tree ledger (ledger.patternProperty id pattern schema).2 := by
  unfold Ledger.patternProperty
  split
  · exact refl tree ledger
  · exact attach _ _ (Record.refined_patternProperty _) fun _ side => by cases side <;> rfl

/-- The items are there, or join. -/
theorem items (tree : SchemaTree) (ledger : Ledger) (id : RecordId) (schema : SchemaId) :
    Refines tree ledger (ledger.items id schema).2 := by
  unfold Ledger.items
  split
  · exact refl tree ledger
  · rename_i unset
    exact attach _ _ (Record.refined_items unset _) fun _ side => by cases side <;> rfl

end Ledger.Refines

end SchemaClasses
