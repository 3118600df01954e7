import SchemaClasses.Proofs.Negation.Schemas
import SchemaClasses.Proofs.Survey.Steps

/-! The survey of a schema on whole numbers: what stands behind an even number of negations is merged into
one record, and all the rest into the negation of that record. -/

namespace SchemaClasses

namespace Record

/-- Whether a record holds what a schema states on one side of its negations and nothing else, titles
apart. -/
def Holds (record : Record) (schema : WholeSchema) (side : Bool) : Prop :=
  record =
    { schema := record.schema
      name := record.name
      checks := record.checks
      negation := record.negation
      negationOf := record.negationOf
      title := record.title
      description := record.description
      types := if schema.isTyped side then [.integer] else []
      minimum := Limit.tightest .minimum (schema.limits side)
      maximum := Limit.tightest .maximum (schema.limits side) }

variable {record : Record} {schema other : WholeSchema} {side : Bool}

/-- What a record holds depends on one side only. -/
theorem Holds.congr (holds : record.Holds schema side) (limits : other.limits side = schema.limits side)
    (typed : other.isTyped side = schema.isTyped side) : record.Holds other side := by
  rw [Holds, limits, typed]
  exact holds

/-- Titles are apart. -/
theorem Holds.titled (holds : record.Holds schema side) (title description : Option String) :
    { record with title, description }.Holds schema side := by
  rw [Holds] at holds ⊢
  rw [holds]

/-- A record that leads to a negation holds the same. -/
theorem Holds.negated (holds : record.Holds schema side) (negation : Option RecordId) :
    { record with negation }.Holds schema side := by
  rw [Holds] at holds ⊢
  rw [holds]

/-- The type is taken in. -/
theorem Holds.addType (holds : record.Holds schema side) :
    (record.addType .integer).Holds (schema.both (WholeSchema.integer.under side)) side := by
  rw [Holds] at holds ⊢
  rw [holds]
  -- The type is one of those stated already, or the first of them.
  cases typed : schema.isTyped side <;>
    simp [Record.addType, addNew, typed, WholeSchema.isTyped, WholeSchema.limits]

/-- A limit is taken in. -/
theorem Holds.setBound (holds : record.Holds schema side) (limit : Limit) :
    (record.setBound (Bound.tighter limit.side (record.bound limit.side) limit.bound)
      limit.side).Holds (schema.both ((WholeSchema.limit limit).under side)) side := by
  -- Only the limit joins what is stated on this side, and no type does.
  have stated : (schema.both ((WholeSchema.limit limit).under side)).limits side =
      schema.limits side ++ [limit] := by simp [WholeSchema.limits]
  have typed : (schema.both ((WholeSchema.limit limit).under side)).isTyped side =
      schema.isTyped side := by simp [WholeSchema.isTyped]
  rw [Holds] at holds ⊢
  rw [stated, typed, Limit.tightest_append, Limit.tightest_append, holds]
  -- The bound of the limit's own side is set, and that of the other one stays.
  cases limit.side <;> rfl

end Record

namespace Ledger

/-- The record that takes what stands on one side of the negations. -/
def Sides (ledger : Ledger) (id : RecordId) (side : Bool) (target : RecordId) : Prop :=
  if side then (ledger.record id).negation = some target else target = id

/-- Whether a record and its negation hold what a schema states, without any checks yet. -/
structure Reads (ledger : Ledger) (id : RecordId) (root : SchemaId) (schema : WholeSchema) : Prop where
  present : id.index < ledger.size
  stocked : (ledger.record id).checks.index < ledger.checkSets.size
  unchecked : ledger.checks id = {}
  made : (ledger.record id).schema = some root
  positive : (ledger.record id).negationOf = none
  holds : (ledger.record id).Holds schema false
  /-- Without a negation, nothing is stated on the other side. -/
  bare : (ledger.record id).negation = none → schema.isTyped true = false ∧ schema.limits true = []
  mirrored : ∀ mirror, (ledger.record id).negation = some mirror →
    mirror.index < ledger.size ∧ (ledger.record mirror).negationOf = some id ∧
      (ledger.record mirror).checks = (ledger.record id).checks ∧
        (ledger.record mirror).Holds schema true

namespace Reads

variable {ledger : Ledger} {id target : RecordId} {root : SchemaId} {schema other : WholeSchema}
variable {side : Bool}

theorem restated (reads : ledger.Reads id root schema) (same : schema.SameSides other) :
    ledger.Reads id root other :=
  { reads with
    holds := reads.holds.congr (same.limits false).symm (same.isTyped false).symm
    bare := by rw [← same.isTyped, ← same.limits]; exact reads.bare
    mirrored := fun mirror held =>
      have ⟨present, negative, shared, holds⟩ := reads.mirrored mirror held
      ⟨present, negative, shared, holds.congr (same.limits true).symm (same.isTyped true).symm⟩ }

/-- The records of both sides are there, and they hold what stands on theirs. -/
theorem of_sides (reads : ledger.Reads id root schema) (sides : ledger.Sides id side target) :
    target.index < ledger.size ∧ (ledger.record target).Holds schema side ∧
      (ledger.record target).negationOf = if side then some id else none := by
  cases side with
  | false =>
    obtain rfl : target = id := sides
    -- The first side is that of the record itself.
    exact ⟨reads.present, reads.holds, reads.positive⟩
  | true =>
    -- The second side is that of its negation.
    obtain ⟨present, negative, -, holds⟩ := reads.mirrored target sides
    exact ⟨present, holds, negative⟩

/-- A record is not its own negation. -/
theorem mirror_ne (reads : ledger.Reads id root schema) {mirror : RecordId}
    (held : (ledger.record id).negation = some mirror) : mirror ≠ id := by
  rintro rfl
  have negative := (reads.mirrored mirror held).2.1
  rw [reads.positive] at negative
  cases negative

end Reads

/-- A record changed in what it holds: it leads to the same records and owns the same checks. -/
structure Retold (before after : Record) : Prop where
  schema : after.schema = before.schema
  checks : after.checks = before.checks
  negation : after.negation = before.negation
  negationOf : after.negationOf = before.negationOf

namespace Reads

variable {ledger : Ledger} {id target : RecordId} {root : SchemaId} {schema other : WholeSchema}
variable {side : Bool}

/-- One side is told more. -/
theorem update {change : Record → Record} (reads : ledger.Reads id root schema)
    (sides : ledger.Sides id side target)
    (retold : Retold (ledger.record target) (change (ledger.record target)))
    (holds : (change (ledger.record target)).Holds other side)
    (limits : other.limits (!side) = schema.limits (!side))
    (typed : other.isTyped (!side) = schema.isTyped (!side)) :
    (ledger.update target change).Reads id root other ∧
      ((ledger.update target change).record id).negation = (ledger.record id).negation := by
  -- Whichever record is looked at, it leads where it did.
  have retells (any : RecordId) :
      Retold (ledger.record any) ((ledger.update target change).record any) :=
    rel_update (fun _ => ⟨rfl, rfl, rfl, rfl⟩) retold
  have told : (ledger.update target change).record target = change (ledger.record target) :=
    record_update_self (reads.of_sides sides).1
  have checks (any : RecordId) : (ledger.update target change).checks any = ledger.checks any :=
    checks_update retold.checks
  refine ⟨?_, (retells id).negation⟩
  -- All but what is held on the side is as it was.
  constructor
  case present => rw [size_update]; exact reads.present
  case stocked => rw [(retells id).checks, checkSets_update]; exact reads.stocked
  case unchecked => rw [checks]; exact reads.unchecked
  case made => rw [(retells id).schema]; exact reads.made
  case positive => rw [(retells id).negationOf]; exact reads.positive
  case holds =>
    cases side with
    | false =>
      obtain rfl : target = id := sides
      rw [told]
      exact holds
    | true =>
      -- The negation is changed, and not the record itself.
      rw [record_update_of_ne (reads.mirror_ne sides).symm]
      exact reads.holds.congr limits typed
  case bare =>
    rw [(retells id).negation]
    intro none
    cases side with
    | false => exact ⟨typed.trans (reads.bare none).1, limits.trans (reads.bare none).2⟩
    | true =>
      -- What is changed on this side is the negation, so there is one.
      rw [show (ledger.record id).negation = some target from sides] at none
      cases none
  case mirrored =>
    intro mirror held
    rw [(retells id).negation] at held
    obtain ⟨present, negative, shared, before⟩ := reads.mirrored mirror held
    rw [size_update, (retells mirror).negationOf, (retells mirror).checks, (retells id).checks]
    refine ⟨present, negative, shared, ?_⟩
    cases side with
    | false =>
      -- The record itself is changed, and not its negation.
      obtain rfl : target = id := sides
      rw [record_update_of_ne (reads.mirror_ne held)]
      exact before.congr limits typed
    | true =>
      obtain rfl : target = mirror := Option.some.inj (Eq.trans (Eq.symm sides) held)
      rw [told]
      exact holds

/-- A negation that is made holds nothing. -/
theorem negate_unset (reads : ledger.Reads id root schema) (unset : (ledger.record id).negation = none) :
    (ledger.negation id).2.Reads id root schema ∧
      ((ledger.negation id).2.record id).negation = some ⟨ledger.size⟩ := by
  have apart : id ≠ ⟨ledger.size⟩ := RecordId.ne_next reads.present
  -- The record leads to the new one, and is the same otherwise.
  have own : (ledger.negation id).2.record id =
      { ledger.record id with negation := some ⟨ledger.size⟩ } := by
    rw [record_negation reads.present reads.positive unset, if_neg apart, if_pos rfl]
  have made : (ledger.negation id).2.record ⟨ledger.size⟩ = ledger.negative id := by
    rw [record_negation reads.present reads.positive unset, if_pos rfl]
  -- One record has joined, and no set of checks has.
  have size := size_negation reads.positive unset
  have sets := checkSets_negation reads.positive unset
  refine ⟨?_, by rw [own]⟩
  constructor
  case present => rw [size]; exact Nat.lt_succ_of_lt reads.present
  case stocked => rw [own, sets]; exact reads.stocked
  case unchecked => rw [Ledger.checks, own, sets]; exact reads.unchecked
  case made => rw [own]; exact reads.made
  case positive => rw [own]; exact reads.positive
  case holds => rw [own]; exact reads.holds.negated _
  case bare =>
    rw [own]
    intro none
    cases none
  case mirrored =>
    intro mirror held
    rw [own] at held ⊢
    cases held
    -- Nothing was stated on the other side so far, which is what a new record holds.
    obtain ⟨untyped, unlimited⟩ := reads.bare unset
    rw [made, size]
    refine ⟨Nat.lt_succ_self _, rfl, rfl, ?_⟩
    rw [Record.Holds, untyped, unlimited]
    rfl

/-- The negation of the record on one side is the one on the other side, made if it is missing. -/
theorem negate (reads : ledger.Reads id root schema) (sides : ledger.Sides id side target) :
    (ledger.negation target).2.Reads id root schema ∧
      (ledger.negation target).2.Sides id (!side) (ledger.negation target).1 ∧
        ∀ mirror, (ledger.record id).negation = some mirror →
          ((ledger.negation target).2.record id).negation = some mirror := by
  cases side with
  | false =>
    obtain rfl : target = id := sides
    cases held : (ledger.record target).negation with
    | none =>
      -- The negation is made on this occasion.
      obtain ⟨reads', leads⟩ := reads.negate_unset held
      refine ⟨reads', ?_, fun mirror held => nomatch held⟩
      rw [negation_of_unset reads.positive held] at leads ⊢
      exact leads
    | some mirror =>
      -- The negation is there already.
      have same : ledger.negation target = (mirror, ledger) := by
        simp only [Ledger.negation, reads.positive, held]
      rw [same]
      exact ⟨reads, held, fun _ same => held.trans same⟩
  | true =>
    -- The negation of the negation is the record itself.
    obtain ⟨-, negative, -, -⟩ := reads.mirrored target sides
    have same : ledger.negation target = (id, ledger) := by
      simp only [Ledger.negation, negative]
    rw [same]
    exact ⟨reads, rfl, fun _ held => held⟩

end Reads

end Ledger

namespace Survey

variable {tree : SchemaTree} {id target : RecordId} {side : Bool} {added schema : WholeSchema}
variable {first second part : Surveying Unit}

/-- Whether a part of a survey adds what a schema states to a record and its negation, seen from the
record of one side. -/
def Adds (id target : RecordId) (side : Bool) (part : Surveying Unit) (added : WholeSchema) : Prop :=
  ∀ (survey : Survey) (root : SchemaId) (held : WholeSchema),
    survey.ledger.Reads id root held → survey.ledger.Sides id side target →
      Ends part survey
        (fun _ last => last.ledger.Reads id root (held.both (added.under side)) ∧
          ∀ mirror, (survey.ledger.record id).negation = some mirror →
            (last.ledger.record id).negation = some mirror)
        (fun _ => False)

/-- Whether a part of a survey adds nothing. -/
abbrev Idles (id target : RecordId) (side : Bool) (part : Surveying Unit) : Prop :=
  Adds id target side part .any

/-- The records of both sides stay where they are. -/
theorem sides_of_kept {before after : Ledger} (sides : before.Sides id side target)
    (kept : ∀ mirror, (before.record id).negation = some mirror →
      (after.record id).negation = some mirror) : after.Sides id side target := by
  cases side with
  | false => exact sides
  | true => exact kept target sides

/-- What is added may be stated in another way. -/
theorem Adds.congr (adds : Adds id target side part added)
    (same : ∀ held : WholeSchema, (held.both (added.under side)).SameSides (held.both (schema.under side))) :
    Adds id target side part schema := fun survey root held reads sides =>
  (adds survey root held reads sides).imp (fun _ _ ⟨reads', kept⟩ => ⟨reads'.restated (same held), kept⟩)
    fun _ failed => failed

/-- One part after the other adds both. -/
theorem Adds.bind (adds : Adds id target side first added) (adds' : Adds id target side second schema) :
    Adds id target side (do first; second) (added.both schema) := by
  intro survey root held reads sides
  rw [ends_bind]
  -- The second part starts from what the first one has added.
  refine (adds survey root held reads sides).imp (fun _ middle done => ?_) fun _ failed => failed
  obtain ⟨reads', kept⟩ := done
  -- The record of the side is still the same, as no negation is replaced.
  refine (adds' middle root _ reads' (sides_of_kept sides kept)).imp (fun _ last done' => ?_)
    fun _ failed => failed
  obtain ⟨reads'', kept'⟩ := done'
  exact ⟨reads''.restated WholeSchema.sameSides_both_both, fun mirror led => kept' mirror (kept mirror led)⟩

/-- A part that changes no records adds nothing. -/
theorem idles_of_ledger_eq
    (same : ∀ survey, Ends part survey (fun _ last => last.ledger = survey.ledger) (fun _ => False)) :
    Idles id target side part := fun survey root held reads _ =>
  (same survey).imp (fun _ last same => by
    rw [same]
    exact ⟨reads.restated WholeSchema.sameSides_both_any, fun _ led => led⟩) fun _ failed => failed

/-- A part for each item of a list adds all that they state. -/
theorem adds_forM {α : Type} {items : List α} {round : α → Surveying Unit}
    {states? : α → Option WholeSchema} {parts : List WholeSchema} (states : items.mapM states? = some parts)
    (adds : ∀ item ∈ items, ∀ part, states? item = some part → Adds id target side (round item) part) :
    Adds id target side (items.forM round) (.all parts) := by
  induction items generalizing parts with
  -- Without items nothing is stated and nothing is done.
  | nil =>
    cases states
    exact idles_of_ledger_eq fun _ => rfl
  | cons item rest ih =>
    -- The first item and the rest are read separately, as they are visited.
    rw [List.mapM_cons] at states
    obtain ⟨part, stated, states⟩ := Option.bind_eq_some_iff.mp states
    obtain ⟨parts', states', ⟨⟩⟩ := Option.bind_eq_some_iff.mp states
    exact (adds item List.mem_cons_self part stated).bind
      (ih states' fun item member => adds item (List.mem_cons_of_mem _ member))

/-- Adding to one side what is stated there alone. -/
theorem adds_update {change : Record → Record}
    (retold : ∀ record, Ledger.Retold record (change record))
    (holds : ∀ (record : Record) (held : WholeSchema), record.Holds held side →
      (change record).Holds (held.both (added.under side)) side)
    (limits : added.limits true = []) (typed : added.isTyped true = false) :
    Adds id target side (update target change) added := by
  intro survey root held reads sides
  rw [ends_update]
  -- What stands on the other side is untouched.
  obtain ⟨reads', same⟩ := reads.update sides (retold _) (holds _ held (reads.of_sides sides).2.1)
    (by simp [limits]) (by simp [typed])
  exact ⟨reads', fun mirror led => same.trans led⟩

/-- A keyword that is absorbed on one side. -/
theorem adds_absorb {location : String} {keyword : Keyword} {change : Record → Record}
    (absorbs : ∀ record : Record, record.absorb location keyword = .ok (change record))
    (retold : ∀ record, Ledger.Retold record (change record))
    (holds : ∀ (record : Record) (held : WholeSchema), record.Holds held side →
      (change record).Holds (held.both (added.under side)) side)
    (limits : added.limits true = []) (typed : added.isTyped true = false) :
    Adds id target side
      (do
        match (← record target).absorb location keyword with
        | .ok merged => update target fun _ => merged
        | .error fault => throw fault) added := by
  intro survey root held reads sides
  simp only [ends_bind, ends_record, absorbs]
  -- The change is given the record that it is applied to.
  have same : survey.ledger.update target (fun _ => change (survey.ledger.record target)) =
      survey.ledger.update target change := Ledger.update_congr rfl
  have updated := adds_update retold holds limits typed survey root held reads sides
  rw [ends_update] at updated ⊢
  rw [same]
  exact updated

/-- A schema without a reference leaves none to note. -/
theorem idles_noteReference {inner : SchemaId} (free : (tree.schema inner).reference? = none) :
    Idles id target side (noteReference tree inner target) := by
  refine idles_of_ledger_eq fun survey => ?_
  simp only [noteReference, ends_bind, ends_record, free]
  split
  · exact rfl
  · exact rfl

/-- Titles are apart from what is stated. -/
theorem idles_noteTitles {inner : Schema} : Idles id target side (noteTitles inner target) :=
  adds_update (fun _ => ⟨rfl, rfl, rfl, rfl⟩)
    (fun _ _ holds => (holds.titled _ _).congr (WholeSchema.sameSides_both_any.limits side).symm
      (WholeSchema.sameSides_both_any.isTyped side).symm) rfl rfl

/-- A keyword adds what it states, when the schemas inside it do. -/
theorem adds_mergeClause {visit : SchemaId → RecordId → Surveying Unit} {isBusy : SchemaId → Bool}
    {whole? : SchemaId → Option WholeSchema} {clause : Clause}
    (visits : ∀ inner part, whole? inner = some part → ∀ side target,
      Adds id target side (visit inner target) part)
    (states : WholeSchema.ofKeyword? whole? clause.keyword = some added) :
    Adds id target side (mergeClause tree visit isBusy target clause) added := by
  obtain ⟨location, keyword⟩ := clause
  unfold WholeSchema.ofKeyword? at states
  unfold mergeClause
  dsimp only at states
  split at states
  · -- The type is stated.
    cases states
    have absorbs (record : Record) :
        record.absorb location (.types [.integer]) = .ok (record.addType .integer) := rfl
    exact adds_absorb absorbs (fun _ => ⟨rfl, rfl, rfl, rfl⟩) (fun _ _ holds => holds.addType) rfl rfl
  · -- A limit is stated.
    rename_i stated value exclusive
    split at states
    · rename_i inside
      cases states
      have absorbs (record : Record) :
          record.absorb location (.bound stated ⟨.whole value, exclusive⟩) =
            .ok (record.setBound (Bound.tighter stated (record.bound stated)
              ⟨.whole value, exclusive⟩) stated) := by
        cases stated <;> rfl
      refine adds_absorb absorbs (fun _ => ⟨rfl, rfl, rfl, rfl⟩) (fun record _ holds => ?_) rfl rfl
      -- The number is one of signed 64-bit, so the limit is stated by this very bound.
      have same : Limit.bound ⟨stated, .ofInt value, exclusive⟩ = ⟨.whole value, exclusive⟩ := by
        rw [Limit.bound, inside]
      rw [← same]
      exact holds.setBound ⟨stated, .ofInt value, exclusive⟩
    · cases states
  · -- The branches of a conjunction are visited for the same record.
    rename_i branches
    obtain ⟨parts, listed, rfl⟩ := Option.map_eq_some_iff.mp states
    exact adds_forM listed fun branch _ part stated => visits branch part stated side target
  · -- The body of a negation is visited for the record of the other side.
    rename_i inner
    obtain ⟨body, stated, rfl⟩ := Option.map_eq_some_iff.mp states
    intro survey root held reads sides
    obtain ⟨reads', sides', kept⟩ := reads.negate sides
    simp only [ends_bind, ends_onLedger]
    refine (visits inner body stated _ _ _ root held reads' sides').imp (fun _ last done => ?_)
      fun _ failed => failed
    obtain ⟨reads'', kept'⟩ := done
    exact ⟨reads''.restated WholeSchema.sameSides_both_negation,
      fun mirror led => kept' mirror (kept mirror led)⟩
  · cases states

/-- The keywords that are understood refer to no other schema. -/
theorem reference?_eq_none {inner : SchemaId} {whole? : SchemaId → Option WholeSchema}
    {parts : List WholeSchema}
    (states : (tree.schema inner).clauses.mapM
      (fun clause => WholeSchema.ofKeyword? whole? clause.keyword) = some parts) :
    (tree.schema inner).reference? = none := by
  -- A reference would be a keyword that is not understood.
  refine List.findSome?_eq_none_iff.mpr fun clause member => ?_
  -- A clause with a reference would be one of those that state something.
  split
  · rename_i text referred refers
    obtain ⟨part, -, stated⟩ := exists_of_mapM_eq_some states member
    rw [refers] at stated
    cases stated
  · rfl

/-- A tree only holds a schema on whole numbers where an open schema object stands, whose keywords are all
understood. -/
theorem exists_of_whole?_eq_some {opened : List SchemaId} {inner : SchemaId}
    (states : tree.whole? opened inner = some schema) :
    inner ∈ opened ∧ ∃ source clauses parts,
      (tree.schema inner).body = .object source clauses ∧
        clauses.mapM (fun clause =>
          WholeSchema.ofKeyword? (tree.whole? (opened.erase inner)) clause.keyword) = some parts ∧
        schema = .all parts := by
  rw [SchemaTree.whole?] at states
  cases body : (tree.schema inner).body with
  | boolean value =>
    rw [body] at states
    cases states
  | object source clauses =>
    rw [body] at states
    -- Only an open schema is read; for a closed one there is nothing to state.
    by_cases isOpen : inner ∈ opened
    · simp only [dif_pos isOpen] at states
      obtain ⟨parts, listed, rfl⟩ := Option.map_eq_some_iff.mp states
      exact ⟨isOpen, source, clauses, parts, rfl, listed, rfl⟩
    · simp only [dif_neg isOpen] at states
      cases states

/-- A visit adds what a schema on whole numbers states. -/
theorem adds_visit {opened : List SchemaId} {inner : SchemaId}
    (states : tree.whole? opened inner = some added) :
    Adds id target side (visit tree opened inner target) added := by
  -- The visit recurses on the list of open schemas, as the reading of the tree does.
  induction opened, inner, target using visit.induct generalizing side added with
  | case1 opened inner target ih =>
    obtain ⟨isOpen, source, clauses, parts, body, listed, rfl⟩ := exists_of_whole?_eq_some states
    have stands : (tree.schema inner).clauses = clauses := by simp [Schema.clauses, body]
    have free : (tree.schema inner).reference? = none := reference?_eq_none (stands ▸ listed)
    have keywords (clause : Clause) (_ : clause ∈ clauses) (part : WholeSchema)
        (stated : WholeSchema.ofKeyword? (tree.whole? (opened.erase inner)) clause.keyword =
          some part) :
        Adds id target side
          (mergeClause tree (visit tree (opened.erase inner)) (isBusy tree (opened.erase inner))
            target clause) part :=
      adds_mergeClause (fun schema part read side target => ih isOpen schema target read) stated
    -- All keywords together add what the whole schema states.
    have all := adds_forM listed keywords
    -- The schema is open, so the visit enters it.
    have entered : visit tree opened inner target = (do
        noteReference tree inner target
        noteTitles (tree.schema inner) target
        clauses.forM (mergeClause tree (visit tree (opened.erase inner))
          (isBusy tree (opened.erase inner)) target)
        checkExamples (tree.location inner) source) := by
      rw [visit, body]
      simp only [dif_pos isOpen]
    rw [entered]
    -- Only the keywords add something, the other parts of the visit do not.
    refine ((idles_noteReference free).bind (idles_noteTitles.bind
      (all.bind (idles_of_ledger_eq ledger_checkExamples)))).congr fun held => ?_
    exact ⟨fun _ => by simp [WholeSchema.limits], fun _ => by simp [WholeSchema.isTyped]⟩

/-- A record that is made for a schema holds nothing. -/
theorem reads_create (ledger : Ledger) (root : SchemaId) :
    (ledger.create (some root) none).2.Reads ⟨ledger.size⟩ root .any := by
  have made : (ledger.create (some root) none).2.record ⟨ledger.size⟩ =
      ledger.fresh (some root) none := by
    rw [Ledger.record_create, if_pos rfl]
  -- The new record is the last one, and so is its set of checks.
  constructor
  case present => rw [Ledger.size_create]; exact Nat.lt_succ_self _
  case stocked => simp [made, Ledger.fresh]
  case unchecked => simp [Ledger.checks, made, Ledger.fresh]
  case made => rw [made]; rfl
  case positive => rw [made]; rfl
  case holds => rw [made]; rfl
  case bare => exact fun _ => ⟨rfl, rfl⟩
  case mirrored =>
    rw [made]
    intro mirror held
    cases held

/-- A schema on whole numbers is merged without a fault: what it states is held by the record that is made
for it and by the negation of that record. -/
theorem reads_begin {root : SchemaId} (states : tree.whole? tree.ids root = some schema)
    (survey : Survey) :
    Ends (begin tree root) survey (fun id last => last.ledger.Reads id root schema) (fun _ => False) := by
  simp only [begin, merge, ends_bind, ends_onLedger, ends_pure]
  have first : (survey.ledger.create (some root) none).2.Sides ⟨survey.ledger.size⟩ false
      ⟨survey.ledger.size⟩ := rfl
  -- The fresh record is visited from the first side, where nothing is stated yet.
  refine (adds_visit states { survey with ledger := (survey.ledger.create (some root) none).2 } root
    .any (reads_create survey.ledger root) first).imp (fun _ last done => ?_) fun _ failed => failed
  exact done.1.restated ⟨fun _ => by simp [WholeSchema.limits], fun _ => by simp [WholeSchema.isTyped]⟩

end Survey

end SchemaClasses
