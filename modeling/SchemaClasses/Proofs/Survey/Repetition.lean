import SchemaClasses.Proofs.Survey.Places
import SchemaClasses.Proofs.Survey.Replay
import SchemaClasses.Proofs.Survey.WellFormed

/-! A survey of a schema into a record that was surveyed for it before changes nothing. -/

namespace SchemaClasses

/-- Whether all that the keywords of the schemas state is such as a document can hold. -/
def SchemaTree.IsProper (tree : SchemaTree) : Prop :=
  ∀ schema, ∀ clause ∈ (tree.schema schema).clauses, clause.keyword.IsProper

/-- The bounds of a proper tree are proper. -/
theorem SchemaTree.IsProper.bounds {tree : SchemaTree} (proper : tree.IsProper) :
    tree.HasProperBounds := by
  rintro side bound ⟨schema, clause, member, same⟩
  have stated := proper schema clause member
  rw [same] at stated
  exact stated

theorem SchemaTree.IsProper.of_schemas {tree : SchemaTree}
    (proper : ∀ schema ∈ tree.schemas.toList, ∀ clause ∈ schema.clauses, clause.keyword.IsProper) :
    tree.IsProper := forall_clauses proper

/-- A record for additional properties stands in their place. -/
theorem Slot.held?_additional {ledger : Ledger} {id inner : RecordId} :
    Slot.additional.held? ledger id = some inner ↔
      (ledger.record id).additional = some (.schema inner) := by
  cases held : (ledger.record id).additional with
  | none => simp [held?, held]
  | some additional => cases additional <;> simp [held?, held, AdditionalProperties.record?]

namespace AdditionalProperties.Rises

variable {before after : Option AdditionalProperties}

/-- What is forbidden stays so. -/
theorem forbidden (rises : Rises before after) (held : before = some .forbidden) :
    after = some .forbidden := by
  rw [← rank_eq_three] at held ⊢
  exact Nat.le_antisymm (rank_le_three after) (held ▸ rises.rank_le)

/-- What is settled stays settled. -/
theorem ne_none (rises : Rises before after) (held : before ≠ none) : after ≠ none := by
  intro none
  rw [← rank_eq_zero] at none
  exact held (rank_eq_zero.mp (Nat.le_zero.mp (none ▸ rises.rank_le)))

end AdditionalProperties.Rises

/-- A second run makes no difference to additional properties. -/
theorem Record.Replays.additional_eq {alive : Prop} {earlier final current : Record}
    (replays : Replays alive earlier final current) : current.additional = final.additional := by
  rw [replays.rest]

namespace Ledger

/-- Whether all bounds of all records are proper. -/
def HasProperBounds (ledger : Ledger) : Prop :=
  ∀ (id : RecordId) (side : Side) (held : Bound),
    (ledger.record id).bound side = some held → held.value.IsProper

/-- A ledger whose bounds are proper is refined into one whose bounds are proper. -/
theorem Refines.hasProperBounds {tree : SchemaTree} {before after : Ledger}
    (refines : before.Refines tree after) (proper : tree.HasProperBounds)
    (bounded : before.HasProperBounds) : after.HasProperBounds := by
  intro id side held set
  rcases refines.bound id side held set with old | stated
  · exact bounded id side held old
  · exact proper side held stated

/-- Two ledgers with the same records and the same checks are the same. -/
theorem ext {ledger other : Ledger} (size : ledger.size = other.size)
    (record : ∀ id, ledger.record id = other.record id)
    (checkSets : ledger.checkSets = other.checkSets) : ledger = other := by
  -- The lists of records have the same length and the same entry at every number.
  have records : ledger.records = other.records := by
    refine Array.ext size fun index here there => ?_
    have same := record ⟨index⟩
    simpa [Ledger.record, Array.getD, here, there] using same
  cases ledger
  cases other
  cases records
  cases checkSets
  rfl

/-- The mirror of a record is there. -/
theorem mirror?_lt {ledger : Ledger} {id inner : RecordId} (sound : ledger.Sound)
    (held : ledger.mirror? id = some inner) : inner.index < ledger.size := by
  unfold mirror? at held
  -- A mirror is shared with a positive record or inside one.
  cases origin : (ledger.record id).negationOf with
  | some other =>
    rw [origin] at held
    cases held
    exact (sound.owned.shares id inner origin).1
  | none =>
    rw [origin] at held
    exact (sound.forest.inside id inner
      (Record.mem_children.mpr (.inr (.inr (.inr (.inr (.inr held))))))).2

/-- A negation that is made mirrors its record. -/
theorem mirror?_negation {ledger : Ledger} {id : RecordId} (present : id.index < ledger.size)
    (origin : (ledger.record id).negationOf = none) (unset : (ledger.record id).negation = none) :
    (ledger.negation id).2.mirror? id = some ⟨ledger.size⟩ := by
  rw [mirror?, record_negation present origin unset, if_neg (RecordId.ne_next present), if_pos rfl,
    origin]
  rfl

/-- A change that keeps the values of its record keeps those of all. -/
theorem sameValues_update {ledger : Ledger} {id other : RecordId} {change : Record → Record}
    (same : (ledger.record id).SameValues (change (ledger.record id))) :
    (ledger.record other).SameValues ((ledger.update id change).record other) :=
  @rel_update _ _ _ Record.SameValues _ .refl same

end Ledger

namespace Survey

variable {tree : SchemaTree} {final : Survey} {top id : RecordId}

/-- A ledger that a survey can start from. -/
structure Ready (survey : Survey) : Prop where
  sound : survey.ledger.Sound
  bounded : survey.ledger.HasProperBounds

/-- A later state of the same survey. -/
structure Precedes (tree : SchemaTree) (before after : Survey) : Prop where
  descends : before.ledger.Descends tree after.ledger
  diagnostics : before.diagnostics.items <+: after.diagnostics.items

theorem Precedes.refl (survey : Survey) : survey.Precedes tree survey :=
  ⟨⟨.refl tree _, fun _ _ _ _ member => member, fun sound => sound⟩, List.prefix_rfl⟩

theorem Precedes.trans {a b c : Survey} (first : a.Precedes tree b) (second : b.Precedes tree c) :
    a.Precedes tree c :=
  ⟨first.descends.trans second.descends, first.diagnostics.trans second.diagnostics⟩

theorem Precedes.ready {a b : Survey} (precedes : a.Precedes tree b) (proper : tree.HasProperBounds)
    (ready : a.Ready) : b.Ready :=
  ⟨precedes.descends.sound ready.sound,
    precedes.descends.refines.hasProperBounds proper ready.bounded⟩

/-- A part of a survey leads to a later state. -/
theorem Works.precedes {part : Surveying Unit} {start last : Survey} (works : Works tree id part)
    (refining : Refining tree part) (sound : start.ledger.Sound)
    (present : id.index < start.ledger.size) (ran : part start = .ok () last) :
    start.Precedes tree last := by
  have refines := refining start
  unfold lastState at refines
  rw [ran] at refines
  exact ⟨works.descends refining sound present ran, refines.diagnostics⟩

/-- The state of a second run beside that of the first: it differs from the state after the first run
at most in values of records that lie under the top and were there already, which are those that the
first run had given them by then. -/
structure Rerun (final : Survey) (top : RecordId) (start current : Survey) : Prop where
  diagnostics : current.diagnostics = final.diagnostics
  checkSets : current.ledger.checkSets = final.ledger.checkSets
  size : current.ledger.size = final.ledger.size
  record : ∀ id : RecordId,
    (start.ledger.record id).Replays (id ∈ final.ledger.under top ∧ id.index < start.ledger.size)
      (final.ledger.record id) (current.ledger.record id)

namespace Rerun

variable {start later current : Survey}

/-- The first run goes on without a change of the values under the top. -/
theorem carry (rerun : Rerun final top start current)
    (size_le : start.ledger.size ≤ later.ledger.size)
    (same : ∀ id ∈ final.ledger.under top, id.index < start.ledger.size →
      (start.ledger.record id).SameValues (later.ledger.record id)) :
    Rerun final top later current where
  diagnostics := rerun.diagnostics
  checkSets := rerun.checkSets
  size := rerun.size
  record id := (rerun.record id).carry
    -- What is alive is alive later, and its values were not changed since.
    (fun lives => ⟨lives.1, Nat.lt_of_lt_of_le lives.2 size_le⟩) fun lives => same id lives.1 lives.2

/-- A record changes on both runs. -/
theorem update (rerun : Rerun final top start current) {change change' : Record → Record}
    (present : id.index < current.ledger.size)
    (changed : (change (start.ledger.record id)).Replays
      (id ∈ final.ledger.under top ∧ id.index < start.ledger.size) (final.ledger.record id)
      (change' (current.ledger.record id)))
    (there : id.index < start.ledger.size) :
    Rerun final top { start with ledger := start.ledger.update id change }
      { current with ledger := current.ledger.update id change' } where
  diagnostics := rerun.diagnostics
  checkSets := rerun.checkSets
  size := by simpa using rerun.size
  record other := by
    simp only [Ledger.record_update, Ledger.size_update]
    -- Only the record that changes has to be looked at.
    by_cases same : other = id
    · subst same
      rw [if_pos ⟨rfl, there⟩, if_pos ⟨rfl, present⟩]
      exact changed
    · rw [if_neg fun both => same both.1, if_neg fun both => same both.1]
      exact rerun.record other

/-- The second run finds the same record in every place. -/
theorem held?_eq (rerun : Rerun final top start current) (id : RecordId) (slot : Slot) :
    slot.held? current.ledger id = slot.held? final.ledger id := by
  have rest (id : RecordId) := (rerun.record id).rest
  -- All that decides where a place leads is left alone on the second run.
  cases slot with
  | property name =>
    -- Names and lists of properties are part of what is left alone.
    have named (id : RecordId) :
        (current.ledger.record id).name = (final.ledger.record id).name := by rw [rest]
    have listed : (current.ledger.record id).properties = (final.ledger.record id).properties := by
      rw [rest]
    simp only [Slot.held?, Ledger.property?, named, listed]
  | patternProperty pattern =>
    have listed : (current.ledger.record id).patternProperties =
        (final.ledger.record id).patternProperties := by rw [rest]
    simp only [Slot.held?, listed]
  | additional =>
    have same : (current.ledger.record id).additional = (final.ledger.record id).additional := by
      rw [rest]
    simp only [Slot.held?, same]
  | items =>
    show (current.ledger.record id).items = (final.ledger.record id).items
    rw [rest]

/-- The second run finds the same mirror. -/
theorem mirror?_eq (rerun : Rerun final top start current) (id : RecordId) :
    current.ledger.mirror? id = final.ledger.mirror? id := by
  have rest := (rerun.record id).rest
  have origin : (current.ledger.record id).negationOf = (final.ledger.record id).negationOf := by
    rw [rest]
  have mirror : (current.ledger.record id).negation = (final.ledger.record id).negation := by
    rw [rest]
  unfold Ledger.mirror?
  rw [origin, mirror]

end Rerun

/-- A part of a survey that, run again in the end, does again what it did, with the same effect on the
values of records. -/
structure Repeats (tree : SchemaTree) (final : Survey) (top : RecordId) (id : RecordId)
    (part : Surveying Unit) : Prop where
  works : Works tree id part
  refining : Refining tree part
  again : ∀ start last current : Survey, start.Ready → id.index < start.ledger.size →
    id ∈ final.ledger.under top → part start = .ok () last → last.Precedes tree final →
    Rerun final top start current →
    ∃ repeated, part current = .ok () repeated ∧ Rerun final top last repeated

namespace Repeats

variable {part : Surveying Unit}

/-- A part without an effect on the ledger has none either when it is run again. -/
theorem of_idle (works : Works tree id part) (refining : Refining tree part)
    (idle : ∀ start last current : Survey, part start = .ok () last →
      last.diagnostics.items <+: current.diagnostics.items →
      last.ledger = start.ledger ∧ part current = .ok () current) :
    Repeats tree final top id part where
  works := works
  refining := refining
  -- The first part changed nothing, so what holds of its start holds of its end.
  again start last current _ _ _ ran precedes rerun := by
    obtain ⟨same, again⟩ := idle start last current ran (rerun.diagnostics ▸ precedes.diagnostics)
    refine ⟨current, again, rerun.carry (by rw [same]) fun other _ _ => ?_⟩
    rw [same]
    exact .refl _

theorem pure : Repeats tree final top id (Pure.pure ()) :=
  .of_idle works_pure .pure fun start last current ran _ => by
    cases ran
    exact ⟨rfl, rfl⟩

/-- A finding that was reported is not reported again. -/
theorem report (found : Diagnostic) : Repeats tree final top id (Survey.report found) := by
  refine .of_idle works_report (refining_report found) fun start last current ran known => ?_
  cases ran
  refine ⟨rfl, ?_⟩
  -- The finding is among those of the first run, and these are known.
  have member : found ∈ (start.diagnostics.push found).items := by
    unfold Diagnostics.push
    split
    · assumption
    · simp
  have again : current.diagnostics.push found = current.diagnostics :=
    if_pos (known.subset member)
  show EStateM.Result.ok () { current with diagnostics := current.diagnostics.push found } = _
  rw [again]

/-- Two parts one after the other. -/
theorem bind {next : Unit → Surveying Unit} (proper : tree.HasProperBounds)
    (repeats : Repeats tree final top id part)
    (repeats' : Repeats tree final top id (next ())) :
    Repeats tree final top id (part >>= next) where
  works := repeats.works.bind fun _ => repeats'.works
  refining := repeats.refining.bind fun _ => repeats'.refining
  again start last current ready present alive ran precedes rerun := by
    -- The first run went through a middle, and the second meets one as well.
    obtain ⟨middle, ran, ran'⟩ := bind_eq_ok.mp ran
    have before := repeats.works.precedes repeats.refining ready.sound present ran
    -- From there the second part runs in the same way.
    have ready' := before.ready proper ready
    have present' := Nat.lt_of_lt_of_le present before.descends.refines.size_le
    have after := repeats'.works.precedes repeats'.refining ready'.sound present' ran'
    obtain ⟨halfway, again, rerun⟩ := repeats.again start middle current ready present alive ran
      (after.trans precedes) rerun
    obtain ⟨repeated, again', rerun⟩ := repeats'.again middle last halfway ready' present' alive ran'
      precedes rerun
    exact ⟨repeated, bind_eq_ok.mpr ⟨halfway, again, again'⟩, rerun⟩

/-- A part for each item of a list. -/
theorem forM {α : Type} {items : List α} {round : α → Surveying Unit}
    (proper : tree.HasProperBounds)
    (repeats : ∀ item ∈ items, Repeats tree final top id (round item)) :
    Repeats tree final top id (items.forM round) := by
  induction items with
  | nil => exact pure
  | cons item rest ih =>
    rw [List.forM]
    exact (repeats item List.mem_cons_self).bind proper
      (ih fun other member => repeats other (List.mem_cons_of_mem _ member))

/-- A change of one record that the second run makes again. -/
theorem update {change : Record → Record} (works : Works tree id (Survey.update id change))
    (refining : Refining tree (Survey.update id change))
    (again : ∀ record last current : Record, (change record).Refined last →
      record.Replays True last current → (change record).Replays True last (change current)) :
    Repeats tree final top id (Survey.update id change) where
  works := works
  refining := refining
  again start last current ready present alive ran precedes rerun := by
    cases ran
    -- Whatever came after the first run has only refined the record.
    have refined := precedes.descends.refines.record id (by simpa using present)
    rw [Ledger.record_update_self present] at refined
    have lives : True ↔ id ∈ final.ledger.under top ∧ id.index < start.ledger.size :=
      ⟨fun _ => ⟨alive, present⟩, fun _ => trivial⟩
    refine ⟨_, rfl, rerun.update ?_ ?_ present⟩
    · -- The record is in range of the later ledger.
      have := precedes.descends.refines.size_le
      rw [rerun.size]
      simp only [Ledger.size_update] at this
      omega
    · have replays := again (start.ledger.record id) (final.ledger.record id)
        (current.ledger.record id) refined
        ((rerun.record id).carry (fun _ => trivial) fun _ => .refl _)
      exact replays.carry lives.mp fun _ => .refl _

end Repeats

/-- Whatever is reported about a pattern was reported before. -/
theorem repeats_checkPattern (location pattern : String) :
    Repeats tree final top id (checkPattern location pattern) := by
  unfold checkPattern
  split
  · exact .pure
  · exact .report _

theorem repeats_checkExamples (proper : tree.HasProperBounds) (location : String) (source : Json) :
    Repeats tree final top id (checkExamples location source) := by
  -- A report that is repeated is in the findings already.
  have unless' (fine : Bool) (found : Diagnostic) :
      Repeats tree final top id (if fine = true then pure () else report found) := by
    -- Reports of examples are all that is done, in one of several forms.
    split
    · exact .pure
    · exact .report found
  have rounds (complaints : Json → List String) :
      Repeats tree final top id ((examplesOf source).forM fun value =>
        if (complaints value).isEmpty = true then pure ()
        else report (.invalidExample location value (complaints value))) :=
    .forM proper fun _ _ => unless' _ _
  -- Nothing is checked without examples or without a validator, and the default comes first.
  unfold checkExamples
  dsimp only
  split
  · split
    · split
      · split
        · exact rounds _
        · exact (Repeats.report _).bind proper (rounds _)
      · exact rounds _
    · exact .pure
  · exact .pure

/-- Titles that were noted are not noted again. -/
theorem repeats_noteTitles (schema : Schema) :
    Repeats tree final top id (noteTitles schema id) := by
  refine .update works_noteTitles (refining_noteTitles schema id) fun record last current refined
    replays => ?_
  have rest := replays.rest
  -- A title that was noted lasts, so the one at hand is not taken.
  have kept (first other last : Option String) (lasts : Lasts (first <|> other) last) :
      (last <|> other) = last := by
    -- A noted text lasts; where none was noted, there was none to note.
    cases last with
    | some text => rfl
    | none =>
      cases other with
      | none => rfl
      | some text =>
        cases first with
        | none => exact absurd (lasts text rfl) (by simp)
        | some held => exact absurd (lasts held rfl) (by simp)
  have title : (current.title <|> schema.title?) = current.title := by
    rw [rest]
    exact kept _ _ _ refined.title
  have description : (current.description <|> schema.description?) = current.description := by
    rw [rest]
    exact kept _ _ _ refined.description
  -- Neither text changes, so the record does not.
  simp only [title, description]
  exact replays.carry (fun lives => lives) fun _ => ⟨rfl, rfl, rfl⟩

/-- A value that is nullable stays so. -/
theorem repeats_nullable :
    Repeats tree final top id (update id fun record => { record with nullable := some true }) := by
  refine .update works_nullable (refining_nullable id) fun record last current refined replays => ?_
  have same : current.nullable = some true := by
    rw [replays.rest]
    exact refined.nullable rfl
  rw [← same]
  exact replays.carry (fun lives => lives) fun _ => ⟨rfl, rfl, rfl⟩

/-- A reference that was noted is not noted again. -/
theorem repeats_noteReference (schema : SchemaId) :
    Repeats tree final top id (noteReference tree schema id) where
  works := works_noteReference
  refining := refining_noteReference schema id
  again start last current ready present alive ran precedes rerun := by
    have before := works_noteReference.precedes (refining_noteReference schema id) ready.sound
      present ran
    have refined := (before.trans precedes).descends.refines.record id present
    have notes : Notes tree schema id start (noteReference tree schema id start) :=
      notes_noteReference
    -- Either the first run noted a target, which is there for good, or there was none to be noted.
    have settled : (start.ledger.record id).SameValues (last.ledger.record id) ∧
        (∀ other ≠ id, last.ledger.record other = start.ledger.record other) ∧
        ((final.ledger.record id).schema = some schema → (final.ledger.record id).target = none →
          (tree.schema schema).reference? = none) := by
      rw [ran] at notes
      generalize result : EStateM.Result.ok () last = outcome at notes
      -- Nothing was noted: then either there was no reference or another one was held.
      cases notes with
      | idle settled =>
        cases result
        refine ⟨.refl _, fun _ _ => rfl, fun own unset => settled (refined.origin.schema ▸ own) ?_⟩
        cases held : (start.ledger.record id).target with
        | none => rfl
        -- A target that was held would still be there.
        | some target =>
          rw [refined.target target held] at unset
          cases unset
      -- A noted target is there for good.
      | note own unset direct =>
        cases result
        have refined := precedes.descends.refines.record id (by simpa using present)
        rw [Ledger.record_update_self present] at refined ⊢
        refine ⟨⟨rfl, rfl, rfl⟩, fun other apart => Ledger.record_update_of_ne apart,
          fun _ none => ?_⟩
        rw [refined.target _ rfl] at none
        cases none
    obtain ⟨same, others, settled⟩ := settled
    refine ⟨current, ?_, rerun.carry before.descends.refines.size_le fun other _ _ => ?_⟩
    · -- On the second run, only the idle case is left.
      have notes : Notes tree schema id current (noteReference tree schema id current) :=
        notes_noteReference
      have rest := (rerun.record id).rest
      generalize noteReference tree schema id current = result at notes
      cases notes with
      | idle _ => rfl
      | note own unset direct =>
        rw [rest] at own unset
        rw [settled own unset] at direct
        cases direct
    · -- Values elsewhere are those from before.
      by_cases here : other = id
      · exact here ▸ same
      · rw [others other here]
        exact .refl _

/-- A keyword without schemas inside is absorbed again. -/
theorem repeats_absorb {clause : Clause} (proper : tree.HasProperBounds)
    (stated : ∀ side bound, clause.keyword = .bound side bound → tree.StatesBound side bound)
    (proper' : clause.keyword.IsProper) :
    Repeats tree final top id (do
      match (← record id).absorb clause.location clause.keyword with
      | .ok merged => update id fun _ => merged
      | .error fault => throw fault) where
  works := works_absorb
  refining := refining_absorb stated proper
  again start last current ready present alive ran precedes rerun := by
    -- A keyword that is absorbed leads to the merged record.
    have run (survey : Survey) {merged : Record}
        (absorbed : (survey.ledger.record id).absorb clause.location clause.keyword = .ok merged) :
        (do
          match (← record id).absorb clause.location clause.keyword with
          | .ok merged => update id fun _ => merged
          | .error fault => throw fault : Surveying Unit) survey =
          .ok () { survey with ledger := survey.ledger.update id fun _ => merged } := by
      show (match (survey.ledger.record id).absorb clause.location clause.keyword with
        | .ok merged => update id fun _ => merged
        | .error fault => throw fault : Surveying Unit) survey = _
      rw [absorbed]
      rfl
    cases absorbed : (start.ledger.record id).absorb clause.location clause.keyword with
    -- The first run would have failed.
    | error fault =>
      have failed : (match (start.ledger.record id).absorb clause.location clause.keyword with
        | .ok merged => update id fun _ => merged
        | .error fault => throw fault : Surveying Unit) start = .ok () last := ran
      rw [absorbed] at failed
      cases failed
    | ok merged =>
      rw [run start absorbed] at ran
      cases ran
      -- The record that was merged has only been refined since.
      have refined := precedes.descends.refines.record id (by simpa using present)
      rw [Ledger.record_update_self present] at refined
      -- The record has been refined since, and still takes the keyword without a change.
      obtain ⟨repeated, again, replays⟩ :=
        ((rerun.record id).carry (fun _ => trivial) fun _ => .refl _).absorb proper'
          (ready.bounded id) absorbed refined
      have size_le := precedes.descends.refines.size_le
      simp only [Ledger.size_update] at size_le
      refine ⟨_, run current again, rerun.update ?_ ?_ present⟩
      · rw [rerun.size]
        omega
      · exact replays.carry (fun _ => ⟨alive, present⟩) fun _ => .refl _

section Parts

variable {visit : SchemaId → RecordId → Surveying Unit} {schema : SchemaId}

/-- A part that goes on with a visit of another record, if the second run comes to the same one. -/
theorem Repeats.enter {part : Surveying Unit} {start last current : Survey} {inner : RecordId}
    (visits : Repeats tree final top inner (visit schema inner)) (ready : start.Ready)
    (present : inner.index < start.ledger.size) (ran : visit schema inner start = .ok () last)
    (precedes : last.Precedes tree final) (rerun : Rerun final top start current)
    (alive : start.Precedes tree final → inner ∈ final.ledger.under top)
    (there : start.Precedes tree final → part current = visit schema inner current) :
    ∃ repeated, part current = .ok () repeated ∧ Rerun final top last repeated := by
  -- What ran before the visit comes before the end as well.
  have before := (visits.works.precedes visits.refining ready.sound present ran).trans precedes
  obtain ⟨repeated, again, rerun⟩ :=
    visits.again start last current ready present (alive before) ran precedes rerun
  exact ⟨repeated, (there before).trans again, rerun⟩

/-- A record is put into a free place. -/
def attached (start : Survey) (id : RecordId) (slot : Slot) (schema : SchemaId) : Survey :=
  { start with
    ledger := (start.ledger.create (some schema) slot.name?).2.update id
      (slot.fill ⟨start.ledger.size⟩) }

/-- A ledger in which a free place was filled. -/
theorem ready_attached {start : Survey} {slot : Slot} (ready : start.Ready)
    (present : id.index < start.ledger.size) (free : slot.IsFree start.ledger id)
    (schema : SchemaId) : (attached start id slot schema).Ready where
  sound := ready.sound.attach present free schema
  bounded other side held set := by
    -- The bounds of other records are those from before.
    have same : ((attached start id slot schema).ledger.record other).bound side =
        ((start.ledger.create (some schema) slot.name?).2.record other).bound side :=
      Ledger.field_update (Record.bound · side) (by cases slot <;> cases side <;> rfl)
    rw [same, Ledger.field_create (Record.bound · side) (by cases side <;> rfl)] at set
    exact ready.bounded other side held set

/-- What was there keeps its values when a free place is filled. -/
theorem sameValues_attached {start : Survey} {slot : Slot} (schema : SchemaId) {other : RecordId}
    (present : other.index < start.ledger.size) :
    (start.ledger.record other).SameValues
      ((attached start id slot schema).ledger.record other) := by
  rw [← @Ledger.record_create_of_lt _ _ (some schema) slot.name? present]
  exact Ledger.sameValues_update (by cases slot <;> exact ⟨rfl, rfl, rfl⟩)

/-- A ledger in which a record has got its negation. -/
theorem ready_negated {start : Survey} (ready : start.Ready) (present : id.index < start.ledger.size)
    (origin : (start.ledger.record id).negationOf = none)
    (unset : (start.ledger.record id).negation = none) :
    Ready { start with ledger := (start.ledger.negation id).2 } := by
  refine ⟨ready.sound.negate present origin unset, fun other side held set => ?_⟩
  -- Records are the new one, the mirrored one, and others, which keep their bounds.
  rw [Ledger.record_negation present origin unset] at set
  split at set
  · cases side <;> cases set
  · split at set
    · exact ready.bounded id side held (by cases side <;> exact set)
    · exact ready.bounded other side held set

/-- What was there keeps its values when a record gets its negation. -/
theorem sameValues_negated {start : Survey} {other : RecordId} (present : id.index < start.ledger.size)
    (origin : (start.ledger.record id).negationOf = none)
    (unset : (start.ledger.record id).negation = none) (there : other.index < start.ledger.size) :
    (start.ledger.record other).SameValues ((start.ledger.negation id).2.record other) := by
  rw [Ledger.record_negation present origin unset, if_neg (RecordId.ne_next there)]
  split
  · -- The mirrored record only has a link more.
    rename_i here
    rw [here]
    exact ⟨rfl, rfl, rfl⟩
  · exact .refl _

/-- Where additional properties are forbidden, a schema for them does nothing. -/
theorem mergeAdditional_of_forbidden {survey : Survey}
    (held : (survey.ledger.record id).additional = some .forbidden) :
    mergeAdditional tree visit schema id survey = .ok () survey := by
  have settles : SettlesAdditional tree visit schema id survey
    (mergeAdditional tree visit schema id survey) := settlesAdditional_mergeAdditional
  -- A record that forbids is idle in one case and contradicts all others.
  generalize mergeAdditional tree visit schema id survey = result at settles
  cases settles with
  | forbidden _ => rfl
  | settled _ _ => rfl
  | forbid body open' => exact absurd held open'
  | allow body unset => simp_all
  | enter inner body held => simp_all
  | attach body open' => simp_all

/-- Where something is settled about additional properties, admitting all of them does nothing. -/
theorem mergeAdditional_of_true {survey : Survey} (body : (tree.schema schema).body = .boolean true)
    (held : (survey.ledger.record id).additional ≠ none) :
    mergeAdditional tree visit schema id survey = .ok () survey := by
  have settles : SettlesAdditional tree visit schema id survey
    (mergeAdditional tree visit schema id survey) := settlesAdditional_mergeAdditional
  -- The schema admits all, which leaves two cases where it is settled.
  generalize mergeAdditional tree visit schema id survey = result at settles
  cases settles with
  | forbidden _ => rfl
  | settled _ _ => rfl
  | forbid body' _ => simp_all
  | allow _ unset => exact absurd unset held
  | enter _ body' _ => exact absurd body (body' true)
  | attach body' _ => exact absurd body (body' true)

/-- Where additional properties have a record, a schema for them is visited there. -/
theorem mergeAdditional_of_schema {survey : Survey} {inner : RecordId}
    (body : ∀ value, (tree.schema schema).body ≠ .boolean value)
    (held : (survey.ledger.record id).additional = some (.schema inner)) :
    mergeAdditional tree visit schema id survey = visit schema inner survey := by
  have settles : SettlesAdditional tree visit schema id survey
    (mergeAdditional tree visit schema id survey) := settlesAdditional_mergeAdditional
  -- With a schema held, the visit is what is left.
  generalize mergeAdditional tree visit schema id survey = result at settles
  cases settles with
  | forbidden held' =>
    rw [held] at held'
    cases held'
  | settled body' _ => exact absurd body' (body true)
  | forbid body' _ => exact absurd body' (body false)
  | allow body' _ => exact absurd body' (body true)
  | enter inner' _ held' =>
    rw [held] at held'
    cases held'
    rfl
  -- The place was open, which it is not.
  | attach _ open' =>
    rw [held] at open'
    rcases open' with unset | allowed
    · cases unset
    · cases allowed

variable (proper : tree.HasProperBounds) (sound : final.ledger.Sound)
variable (positive : (final.ledger.record top).negationOf = none)
variable (visits : ∀ schema inner, Repeats tree final top inner (visit schema inner))

include sound positive visits

/-- A place is filled on the first run at most, and both runs go on with the record that stands
there. -/
theorem repeats_provide {slot : Slot} {change : Ledger → RecordId × Ledger}
    (same : ∀ ledger, change ledger = ledger.provide id slot schema) (named : slot ≠ .additional)
    (works : Works tree id (onLedger change >>= visit schema))
    (refining : Refining tree (onLedger change >>= visit schema)) :
    Repeats tree final top id (onLedger change >>= visit schema) where
  works := works
  refining := refining
  again start last current ready present alive ran precedes rerun := by
    have run (survey : Survey) : (onLedger change >>= visit schema) survey =
        visit schema (survey.ledger.provide id slot schema).1
          { survey with ledger := (survey.ledger.provide id slot schema).2 } := by
      rw [← same]
      rfl
    -- Whatever stands in the place after the first run, the second one finds it.
    have lasts {middle : Survey} {inner : RecordId} (precedes : middle.Precedes tree final)
        (forest : middle.ledger.Forest) (present : id.index < middle.ledger.size)
        (held : slot.held? middle.ledger id = some inner) :
        slot.held? final.ledger id = some inner :=
      (Slot.held?_of_refines precedes.descends.refines forest present held).resolve_right
        fun forbidden => named forbidden.1
    -- The record that is found lies under the top as its holder does.
    have linked {inner : RecordId} (held : slot.held? final.ledger id = some inner) :
        inner ∈ final.ledger.under top :=
      Ledger.links_subset_under sound positive alive
        (Record.mem_links.mpr (.inl (Slot.mem_children_of_held? held)))
    -- The second run visits the record in the place.
    have found {inner : RecordId} (held : slot.held? final.ledger id = some inner) :
        (onLedger change >>= visit schema) current = visit schema inner current := by
      rw [← rerun.held?_eq] at held
      rw [run, Ledger.provide, held]
    rw [run] at ran
    -- The place was taken on the first run or free.
    cases held : slot.held? start.ledger id with
    | some inner =>
      rw [Ledger.provide, held] at ran
      have inside := ready.sound.forest.inside id inner (Slot.mem_children_of_held? held)
      exact (visits schema inner).enter ready inside.2 ran precedes rerun
        (fun before => linked (lasts before ready.sound.forest present held))
        fun before => found (lasts before ready.sound.forest present held)
    -- A free place was filled, and the new record stands there until the end.
    | none =>
      have free := Slot.isFree_iff.mpr held
      rw [Ledger.provide, held] at ran
      have ready' : (attached start id slot schema).Ready := ready_attached ready present free schema
      have present' : id.index < (attached start id slot schema).ledger.size := by
        simpa [attached] using Nat.lt_succ_of_lt present
      have stands : slot.held? (attached start id slot schema).ledger id =
          some ⟨start.ledger.size⟩ := Slot.held?_attach free ready.sound.forest present schema
      refine (visits schema _).enter ready' (by simp [attached]) ran precedes
        (rerun.carry (by simp [attached]) fun other _ there => sameValues_attached schema there)
        (fun before => ?_) fun before => ?_
      · exact linked (lasts before ready'.sound.forest present' stands)
      · exact found (lasts before ready'.sound.forest present' stands)

omit visits in
/-- The mirror of a record under the top lies there as well. -/
theorem mirror?_mem_under {inner : RecordId} (alive : id ∈ final.ledger.under top)
    (held : final.ledger.mirror? id = some inner) : inner ∈ final.ledger.under top := by
  refine Ledger.links_subset_under sound positive alive (Record.mem_links.mpr ?_)
  unfold Ledger.mirror? at held
  rw [Record.mem_children]
  -- A mirror is linked from its record, and a record from its mirror.
  cases origin : (final.ledger.record id).negationOf with
  | some other =>
    rw [origin] at held
    exact .inr held
  | none =>
    rw [origin] at held
    exact .inl (.inr (.inr (.inr (.inr (.inr held)))))

/-- A negation is made on the first run at most, and both runs go on with the same one. -/
theorem repeats_negation : Repeats tree final top id (do
    let negation ← onLedger (·.negation id)
    visit schema negation) where
  works := works_negation fun record => (visits schema record).works
  refining := (refining_onLedger fun ledger => .negation tree ledger id).bind fun record =>
    (visits schema record).refining
  again start last current ready present alive ran precedes rerun := by
    -- The part is a visit of the mirror in the ledger that holds it.
    have run (survey : Survey) : (onLedger (·.negation id) >>= visit schema) survey =
        visit schema (survey.ledger.negation id).1
          { survey with ledger := (survey.ledger.negation id).2 } := rfl
    have linked {inner : RecordId} (held : final.ledger.mirror? id = some inner) :=
      mirror?_mem_under sound positive alive held
    have found {inner : RecordId} (held : final.ledger.mirror? id = some inner) :
        (onLedger (·.negation id) >>= visit schema) current = visit schema inner current := by
      rw [← rerun.mirror?_eq] at held
      rw [run, Ledger.negation_of_mirror? held]
    -- The mirror was there on the first run or was made by it.
    cases held : start.ledger.mirror? id with
    | some inner =>
      have ran : (onLedger (·.negation id) >>= visit schema) start = .ok () last := ran
      rw [run, Ledger.negation_of_mirror? held] at ran
      -- The mirror from the first run is the one that is found now.
      have lasts (before : start.Precedes tree final) : final.ledger.mirror? id = some inner :=
        Ledger.mirror?_of_refines before.descends.refines present held
      exact (visits schema inner).enter ready (Ledger.mirror?_lt ready.sound held) ran precedes rerun
        (fun before => linked (lasts before)) fun before => found (lasts before)
    -- The one that was made is there for good.
    | none =>
      obtain ⟨origin, unset⟩ := Ledger.mirror?_eq_none.mp held
      have ran : visit schema (start.ledger.negation id).1
          { start with ledger := (start.ledger.negation id).2 } = .ok () last := ran
      rw [show (start.ledger.negation id).1 = ⟨start.ledger.size⟩ by
        rw [Ledger.negation_of_unset origin unset]] at ran
      have size := Ledger.size_negation origin unset
      have lasts (before : Precedes tree { start with ledger := (start.ledger.negation id).2 } final) :
          final.ledger.mirror? id = some ⟨start.ledger.size⟩ :=
        Ledger.mirror?_of_refines before.descends.refines (by rw [size]; omega)
          (Ledger.mirror?_negation present origin unset)
      exact (visits schema _).enter (ready_negated ready present origin unset)
        (by rw [size]; exact Nat.lt_succ_self _) ran precedes
        (rerun.carry (by rw [size]; exact Nat.le_succ _) fun other _ there =>
          sameValues_negated present origin unset there)
        (fun before => linked (lasts before)) fun before => found (lasts before)

omit visits in
/-- A record for additional properties that is there lies under the top. -/
theorem additional_mem_under {inner : RecordId} (alive : id ∈ final.ledger.under top)
    (held : (final.ledger.record id).additional = some (.schema inner)) :
    inner ∈ final.ledger.under top :=
  Ledger.links_subset_under sound positive alive
    (Record.mem_links.mpr (.inl (Record.mem_children.mpr (.inr (.inr (.inl held))))))

/-- Where additional properties had a record on the first run, the second one goes on with it, unless they
have become forbidden since. -/
theorem repeats_enterAdditional {start last current : Survey} {inner : RecordId} (ready : start.Ready)
    (present : id.index < start.ledger.size) (alive : id ∈ final.ledger.under top)
    (body : ∀ value, (tree.schema schema).body ≠ .boolean value)
    (held : (start.ledger.record id).additional = some (.schema inner))
    (ran : visit schema inner start = .ok () last) (precedes : last.Precedes tree final)
    (rerun : Rerun final top start current) :
    ∃ repeated, mergeAdditional tree visit schema id current = .ok () repeated ∧
      Rerun final top last repeated := by
  have rest := (rerun.record id).additional_eq
  have inside := ready.sound.forest.inside id inner
    (Record.mem_children.mpr (.inr (.inr (.inl held))))
  -- The visit is a part of the first run, and it comes before the end.
  have middle := (visits schema inner).works.precedes (visits schema inner).refining ready.sound
    inside.2 ran
  have before := middle.trans precedes
  have kept := Slot.held?_of_refines before.descends.refines ready.sound.forest present
    (Slot.held?_additional.mpr held)
  -- The place has been forbidden in the meantime or is still held.
  by_cases forbidden : (final.ledger.record id).additional = some .forbidden
  · refine ⟨current, mergeAdditional_of_forbidden (rest.trans forbidden),
      rerun.carry middle.descends.refines.size_le fun other lives there => ?_⟩
    -- The record that has lost its place is not met again.
    rw [(visits schema inner).works.record_eq ready.sound
      (Ledger.negationOf_additional ready.sound held) .refl ran there fun below =>
        Ledger.not_mem_under_of_forbidden ready.sound before.descends present held forbidden
          (Ledger.le_of_mem_under sound.forest alive) below lives]
    exact .refl _
  · -- It is held by the same record, which both runs visit.
    have held' : (final.ledger.record id).additional = some (.schema inner) :=
      Slot.held?_additional.mp (kept.resolve_right fun lost => forbidden lost.2)
    exact (visits schema inner).enter ready inside.2 ran precedes rerun
      (fun _ => additional_mem_under sound positive alive held')
      fun _ => mergeAdditional_of_schema body (rest.trans held')

/-- Where additional properties get a record on the first run, the second one goes on with it, unless they
have become forbidden since. -/
theorem repeats_attachAdditional {start last current : Survey} (ready : start.Ready)
    (present : id.index < start.ledger.size) (alive : id ∈ final.ledger.under top)
    (body : ∀ value, (tree.schema schema).body ≠ .boolean value)
    (free : Slot.additional.IsFree start.ledger id)
    (ran : visit schema ⟨start.ledger.size⟩ (attached start id .additional schema) = .ok () last)
    (precedes : last.Precedes tree final) (rerun : Rerun final top start current) :
    ∃ repeated, mergeAdditional tree visit schema id current = .ok () repeated ∧
      Rerun final top last repeated := by
  have rest := (rerun.record id).additional_eq
  -- The ledger with the new record is ready for the visit.
  have ready' : (attached start id .additional schema).Ready :=
    ready_attached ready present free schema
  have grown : (attached start id .additional schema).ledger.size = start.ledger.size + 1 := by
    simp [attached]
  have inside : start.ledger.size < (attached start id .additional schema).ledger.size := by
    omega
  have middle := (visits schema ⟨start.ledger.size⟩).works.precedes (visits schema _).refining
    ready'.sound inside ran
  -- The new record holds its place, unless that has become forbidden.
  have kept := Slot.held?_of_refines (middle.trans precedes).descends.refines
    ready'.sound.forest (by omega) (Slot.held?_attach free ready.sound.forest present schema)
  by_cases forbidden : (final.ledger.record id).additional = some .forbidden
  · refine ⟨current, mergeAdditional_of_forbidden (rest.trans forbidden),
      rerun.carry ?_ fun other _ there => ?_⟩
    · have := middle.descends.refines.size_le
      omega
    · -- The record is new, and nothing lies inside it, so that no other one was touched.
      have apart : other ≠ ⟨start.ledger.size⟩ := RecordId.ne_next there
      have alone : ((attached start id .additional schema).ledger.record
          ⟨start.ledger.size⟩).links = [] := by
        have fresh : (⟨start.ledger.size⟩ : RecordId) ≠ id := (RecordId.ne_next present).symm
        simp only [attached]
        rw [Ledger.record_update_of_ne fresh, Ledger.record_create, if_pos rfl]
        rfl
      rw [(visits schema _).works.record_eq_of_childless ready'.sound alone ran (by omega) apart]
      exact sameValues_attached schema there
  · -- Then the second run visits the record that was made.
    have held' : (final.ledger.record id).additional = some (.schema ⟨start.ledger.size⟩) :=
      Slot.held?_additional.mp (kept.resolve_right fun lost => forbidden lost.2)
    exact (visits schema _).enter ready' inside ran precedes
      (rerun.carry (by omega) fun other _ there => sameValues_attached schema there)
      (fun _ => additional_mem_under sound positive alive held')
      fun _ => mergeAdditional_of_schema body (rest.trans held')

/-- A schema for additional properties does again what it did, unless they have become forbidden
since. -/
theorem repeats_mergeAdditional (schema : SchemaId) :
    Repeats tree final top id (mergeAdditional tree visit schema id) where
  works := works_mergeAdditional fun schema record => (visits schema record).works
  refining := refining_mergeAdditional (fun schema record => (visits schema record).refining) schema id
  again start last current ready present alive ran precedes rerun := by
    have rest := (rerun.record id).additional_eq
    have refines : last.ledger.Refines tree final.ledger := precedes.descends.refines
    have settles : SettlesAdditional tree visit schema id start
      (mergeAdditional tree visit schema id start) := settlesAdditional_mergeAdditional
    rw [ran] at settles
    generalize result : EStateM.Result.ok () last = outcome at settles
    -- What was settled on the first run can only have risen since, up to being forbidden.
    cases settles with
    | forbidden held =>
      cases result
      have rises := (refines.record id present).additional
      exact ⟨current, mergeAdditional_of_forbidden (rest.trans (rises.forbidden held)), rerun⟩
    | settled body held =>
      cases result
      have rises := (refines.record id present).additional
      exact ⟨current, mergeAdditional_of_true body (rest ▸ rises.ne_none held), rerun⟩
    -- What was forbidden by the first run is forbidden still.
    | forbid body open' =>
      cases result
      have rises := (refines.record id (by simpa using present)).additional
      rw [Ledger.record_update_self present] at rises
      exact ⟨current, mergeAdditional_of_forbidden (rest.trans (rises.forbidden rfl)),
        rerun.carry (by simp) fun other _ _ => Ledger.sameValues_update ⟨rfl, rfl, rfl⟩⟩
    -- What was allowed may have been forbidden since, and it is settled in any case.
    | allow body unset =>
      cases result
      have rises := (refines.record id (by simpa using present)).additional
      rw [Ledger.record_update_self present] at rises
      exact ⟨current, mergeAdditional_of_true body (rest ▸ rises.ne_none (by simp)),
        rerun.carry (by simp) fun other _ _ => Ledger.sameValues_update ⟨rfl, rfl, rfl⟩⟩
    -- A record was there on the first run.
    | enter inner body held =>
      exact repeats_enterAdditional sound positive visits ready present alive body held result.symm
        precedes rerun
    -- A record was made on the first run.
    | attach body open' =>
      have free : Slot.additional.IsFree start.ledger id := by
        intro inner held
        rcases open' with unset | allowed <;> simp_all
      exact repeats_attachAdditional sound positive visits ready present alive body free result.symm
        precedes rerun

include proper

omit sound positive in
/-- Branches that have a record already are not visited again. -/
theorem repeats_addBranches (branches : List SchemaId) :
    Repeats tree final top id (addBranches visit id branches) := by
  have works (branch : SchemaId) : Works tree id (addBranch visit id branch) :=
    works_addBranch fun schema record => (visits schema record).works
  have refining (branch : SchemaId) : Refining tree (addBranch visit id branch) :=
    refining_addBranch fun schema record => (visits schema record).refining
  show Repeats tree final top id (branches.forM (addBranch visit id))
  refine .forM proper fun branch _ => ⟨works branch, refining branch, ?_⟩
  intro start last current ready present alive ran precedes rerun
  have before := (works branch).precedes (refining branch) ready.sound present ran
  -- A branch that is listed at the end is listed now.
  have idle (known : last.ledger.hasBranch id branch) :
      addBranch visit id branch current = .ok () current := by
    have known := Ledger.hasBranch_of_refines precedes.descends.refines
      (before.descends.sound ready.sound).forest
      (Nat.lt_of_lt_of_le present before.descends.refines.size_le) known
    have rest (id : RecordId) := (rerun.record id).rest
    rw [addBranch_eq, if_pos]
    unfold Ledger.hasBranch at known ⊢
    -- The lists and the schemas of records are those of the end.
    have listed : (current.ledger.record id).oneOf = (final.ledger.record id).oneOf := by rw [rest]
    have made (known : RecordId) :
        (current.ledger.record known).schema = (final.ledger.record known).schema := by rw [rest]
    simp only [listed, made]
    exact known
  rw [addBranch_eq] at ran
  split at ran
  · -- The branch was known to the first run.
    rename_i known
    cases ran
    exact ⟨current, idle known, rerun⟩
  · obtain ⟨middle, visited, updated⟩ := bind_eq_ok.mp (show
      (visit branch ⟨start.ledger.size⟩ >>= fun _ =>
        update id fun held => { held with oneOf := held.oneOf ++ [⟨start.ledger.size⟩] })
        { start with ledger := (start.ledger.create (some branch) none).2 } = .ok () last from ran)
    -- It was made and listed by the first run, which leaves values alone elsewhere.
    cases updated
    obtain ⟨grown, -, made, kept⟩ :=
      (visits branch _).works.of_create (visits branch _).refining ready.sound visited
    refine ⟨current, idle ?_, rerun.carry before.descends.refines.size_le fun other _ there => ?_⟩
    · unfold Ledger.hasBranch
      rw [Ledger.record_update_self (Nat.lt_trans present grown)]
      refine List.any_eq_true.mpr ⟨⟨start.ledger.size⟩, by simp, ?_⟩
      rw [Ledger.field_update Record.schema rfl, made]
      exact beq_self_eq_true _
    · rw [← kept other there]
      exact Ledger.sameValues_update ⟨rfl, rfl, rfl⟩

/-- A keyword that a proper tree states does again what it did. -/
theorem repeats_mergeClause {clause : Clause} (proper' : clause.keyword.IsProper)
    (stated : ∀ side bound, clause.keyword = .bound side bound → tree.StatesBound side bound)
    (isBusy : SchemaId → Bool) :
    Repeats tree final top id (mergeClause tree visit isBusy id clause) := by
  have works (schema : SchemaId) (record : RecordId) := (visits schema record).works
  have refining (schema : SchemaId) (record : RecordId) := (visits schema record).refining
  -- Every keyword is a sequence of parts that repeat.
  unfold mergeClause
  split
  · -- A busy reference is passed over by both runs.
    split
    · exact .pure
    · exact visits _ _
  · exact .forM proper fun branch _ => visits branch id
  · -- Alternatives may only admit null besides one schema.
    split
    · exact (visits _ _).bind proper repeats_nullable
    · exact .report _
  · split
    · exact (visits _ _).bind proper repeats_nullable
    · exact repeats_addBranches proper visits _
  · -- Parts that make a record first find it on the second run.
    exact repeats_negation sound positive visits
  · refine .forM proper fun entry _ => ?_
    exact repeats_provide sound positive visits (fun _ => Ledger.property_eq_provide entry.1)
      Slot.noConfusion (works_property fun record => works _ record)
      ((refining_onLedger fun ledger => .property tree ledger id _ _).bind fun _ => refining _ _)
  · refine .forM proper fun entry _ => (repeats_checkPattern _ _).bind proper ?_
    exact repeats_provide sound positive visits (fun _ => Ledger.patternProperty_eq_provide entry.1)
      Slot.noConfusion (works_patternProperty fun record => works _ record)
      ((refining_onLedger fun ledger => .patternProperty tree ledger id _ _).bind fun _ =>
        refining _ _)
  · -- Additional properties, and the items.
    exact repeats_mergeAdditional sound positive visits _
  · exact repeats_provide sound positive visits (fun _ => Ledger.items_eq_provide)
      Slot.noConfusion (works_items fun record => works _ record)
      ((refining_onLedger fun ledger => .items tree ledger id _).bind fun _ => refining _ _)
  · -- The rest is absorbed, in part after a check.
    split
    · exact (repeats_checkPattern _ _).bind proper (repeats_absorb proper stated proper')
    · exact repeats_absorb proper stated proper'

end Parts

/-- A schema does again what it did. -/
theorem repeats_visit (proper : tree.IsProper) (sound : final.ledger.Sound)
    (positive : (final.ledger.record top).negationOf = none) (opened : List SchemaId)
    (schema : SchemaId) (id : RecordId) :
    Repeats tree final top id (visit tree opened schema id) := by
  -- The list of open schemas grows shorter with every schema that is entered.
  induction opened, schema, id using visit.induct with
  | case1 opened schema id ih =>
    rw [visit]
    -- The reference is noted, then the body decides.
    refine (repeats_noteReference schema).bind proper.bounds ?_
    split
    · exact repeats_nullable
    · rename_i source clauses body
      split
      · rename_i isOpen
        -- Titles first, keywords next, examples last.
        refine (repeats_noteTitles _).bind proper.bounds ?_
        refine (Repeats.forM proper.bounds fun clause member => ?_).bind proper.bounds
          (repeats_checkExamples proper.bounds _ source)
        have member : clause ∈ (tree.schema schema).clauses := by
          simpa [Schema.clauses, body] using member
        exact repeats_mergeClause proper.bounds sound positive (ih isOpen)
          (proper schema clause member) (fun side bound same => ⟨schema, clause, member, same⟩) _
      · exact .pure

/-- What a second run leaves of a survey, once nothing more follows in the first. -/
theorem Rerun.eq {last repeated : Survey} (rerun : Rerun last top last repeated) :
    repeated = last := by
  -- At the end, all that may differ between the runs is the same.
  have record (id : RecordId) : repeated.ledger.record id = last.ledger.record id := by
    obtain ⟨rest, constant, enumeration, default⟩ := rerun.record id
    rw [rest, constant.elim (·) (·.2), enumeration.elim (·) (·.2), default.elim (·) (·.2)]
  have ledger : repeated.ledger = last.ledger := Ledger.ext rerun.size record rerun.checkSets
  cases last
  cases repeated
  cases ledger
  cases rerun.diagnostics
  rfl

/-- A part of a survey that does again what it did has no effect right after it was run. -/
theorem Repeats.idle {part : Surveying Unit} {start last : Survey} (proper : tree.HasProperBounds)
    (ready : start.Ready) (present : id.index < start.ledger.size)
    (repeats : ∀ final : Survey, ∀ top, final.ledger.Sound →
      (final.ledger.record top).negationOf = none → Repeats tree final top id part)
    (works : Works tree id part) (refining : Refining tree part)
    (ran : part start = .ok () last) : part last = .ok () last := by
  have sound := (works.precedes refining ready.sound present ran).ready proper ready |>.sound
  -- The record that owns the checks is no negation, and the one at hand lies under it.
  obtain ⟨top, positive, alive⟩ :
      ∃ top, (last.ledger.record top).negationOf = none ∧ id ∈ last.ledger.under top := by
    -- The record is positive, or it is the negation of one that is.
    cases origin : (last.ledger.record id).negationOf with
    | none => exact ⟨id, origin, .refl⟩
    | some top =>
      have mirrored := (sound.owned.mirror top id).mpr origin
      exact ⟨top, (sound.owned.shares id top origin).2.1, .single
        (Record.mem_children_iff.mpr ⟨.negation, by simp [Record.inside, mirrored]⟩)⟩
  -- The run is compared with itself, for nothing follows.
  have rerun : Rerun last top start last :=
    ⟨rfl, rfl, rfl, fun _ => ⟨rfl, .inl rfl, .inl rfl, .inl rfl⟩⟩
  obtain ⟨repeated, again, rerun⟩ := (repeats last top sound positive).again start last last ready
    present alive ran (.refl last) rerun
  rw [again, rerun.eq]

/-- Surveys into a ledger that a survey can start from leave it so, even if they fail. -/
theorem ready_beginAll (proper : tree.HasProperBounds) (roots : List SchemaId) {survey : Survey}
    (ready : survey.Ready) : (beginAll tree roots survey).Ready := by
  refine List.foldlRecOn roots _ (motive := Ready) ready fun survey ready root _ => ?_
  have refining : Refining tree (begin tree root) :=
    (refining_onLedger fun ledger => .create tree ledger _ _).bind fun id =>
      (refining_visit proper tree.ids root id).bind fun _ => .pure
  -- The ledger is sound, however the survey ends.
  have closes : Closes (begin tree root) survey (fun _ last => last.ledger.Sound)
      fun _ last => last.ledger.Sound :=
    (begin_sound ready.sound).mono fun _ _ begun => begun.sound
  exact ⟨closes.lastState, (refining survey).ledger.hasProperBounds proper ready.bounded⟩

/-- Whatever was surveyed before, a schema or a single keyword that was merged into a record without a
fault is merged again without a fault, and neither the ledger nor the findings change. -/
theorem merge_again (proper : tree.IsProper) (roots : List SchemaId) (found : Diagnostics)
    (present : id.index < (beginAll tree roots { diagnostics := found }).ledger.size) :
    (∀ schema last, merge tree schema id (beginAll tree roots { diagnostics := found }) =
        .ok () last → merge tree schema id last = .ok () last) ∧
      ∀ schema, ∀ clause ∈ (tree.schema schema).clauses, ∀ last,
        mergeClause tree (visit tree tree.ids) (isBusy tree tree.ids) id clause
            (beginAll tree roots { diagnostics := found }) = .ok () last →
          mergeClause tree (visit tree tree.ids) (isBusy tree tree.ids) id clause last =
            .ok () last := by
  -- Earlier surveys leave a ledger that is ready.
  have ready : (beginAll tree roots { diagnostics := found }).Ready := by
    refine ready_beginAll proper.bounds roots ⟨.empty, fun id side held set => ?_⟩
    cases side <;> cases set
  have refining (schema : SchemaId) (id : RecordId) : Refining tree (visit tree tree.ids schema id) :=
    refining_visit proper.bounds tree.ids schema id
  -- What a merge leaves behind is ready for it, and whoever is ready takes it without a change. A keyword
  -- needs that of the visits of the schemas in it as well.
  refine ⟨fun schema last => ?_, fun schema clause stated last => ?_⟩
  · refine Repeats.idle proper.bounds ready present (fun final top sound positive => ?_)
      (works_visit tree.ids schema id) (refining schema id)
    exact repeats_visit proper sound positive tree.ids schema id
  · refine Repeats.idle proper.bounds ready present (fun final top sound positive => ?_)
      (works_mergeClause fun schema record => works_visit tree.ids schema record)
      (refining_mergeClause refining (fun _ _ same => ⟨schema, clause, stated, same⟩) proper.bounds
        _ id)
    exact repeats_mergeClause proper.bounds sound positive
      (fun schema record => repeats_visit proper sound positive tree.ids schema record)
      (proper schema clause stated) (fun _ _ same => ⟨schema, clause, stated, same⟩) _

/-- A schema that merges another one twice, with branches, a negation and additional properties that
it forbids in the end. -/
def overlappingTree : SchemaTree where
  schemas := #[
    ⟨"a", .object .null [
      ⟨"a", .allOf [⟨1⟩, ⟨1⟩]⟩, ⟨"a", .oneOf [⟨2⟩, ⟨2⟩]⟩, ⟨"a", .negation ⟨1⟩⟩,
      ⟨"a", .additionalProperties ⟨2⟩⟩, ⟨"a", .additionalProperties ⟨3⟩⟩]⟩,
    ⟨"b", .object .null [
      ⟨"b", .constant (.integer 1)⟩, ⟨"b", .negation ⟨0⟩⟩, ⟨"b", .properties [("p", ⟨2⟩)]⟩,
      ⟨"b", .bound .minimum ⟨.whole 3, false⟩⟩]⟩,
    ⟨"c", .object .null [⟨"c", .types [.string, .null]⟩, ⟨"c", .negation ⟨1⟩⟩]⟩,
    ⟨"d", .boolean false⟩]

theorem isProper_overlappingTree : overlappingTree.IsProper := by
  refine .of_schemas ?_
  simp [overlappingTree, Schema.clauses, Keyword.IsProper]
  decide

/-- Merged into the record of another schema, it makes six records; merged again, it makes none. -/
theorem merge_again_overlapping :
    ∃ last, merge overlappingTree ⟨0⟩ ⟨0⟩ (beginAll overlappingTree [⟨2⟩] {}) = .ok () last ∧
      last.ledger.size = 8 ∧ merge overlappingTree ⟨0⟩ ⟨0⟩ last = .ok () last := by
  -- The first merge is computed.
  have merged : (match merge overlappingTree ⟨0⟩ ⟨0⟩ (beginAll overlappingTree [⟨2⟩] {}) with
      | .ok _ last => decide (last.ledger.size = 8)
      | .error _ _ => false) = true := by
    decide +kernel
  -- The record of the other schema is there.
  have present : (⟨0⟩ : RecordId).index < (beginAll overlappingTree [⟨2⟩] {}).ledger.size := by
    decide +kernel
  have again := (merge_again isProper_overlappingTree [⟨2⟩] {} present).1 ⟨0⟩
  cases ran : merge overlappingTree ⟨0⟩ ⟨0⟩ (beginAll overlappingTree [⟨2⟩] {}) with
  | ok result last =>
    rw [ran] at merged
    exact ⟨last, rfl, of_decide_eq_true merged, again last ran⟩
  | error fault last =>
    rw [ran] at merged
    cases merged

end Survey

end SchemaClasses
