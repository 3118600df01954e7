import SchemaClasses.Proofs.Survey.Refinement

/-! Every part of a survey refines what was gathered, whether it gets to its end or a fault stops it
on the way. -/

namespace SchemaClasses

/-- A run that leads from every state to the one in which it ends, with a result or with a fault. -/
def Moves {ε σ α : Type} (leads : σ → σ → Prop) (step : EStateM ε σ α) : Prop :=
  ∀ start, leads start (lastState step start)

/-- The second of two runs starts where the first one ended, unless that failed. -/
theorem lastState_bind {ε σ α β : Type} {step : EStateM ε σ α} {next : α → EStateM ε σ β}
    {start : σ} :
    lastState (step >>= next) start =
      match step start with
      | .ok result last => lastState (next result) last
      | .error _ last => last := by
  unfold lastState
  simp only [Bind.bind, EStateM.bind]
  cases step start <;> rfl

namespace Moves

variable {ε σ α β : Type} {leads : σ → σ → Prop} {step : EStateM ε σ α}

/-- A run that begins with a look at the state. -/
theorem look {next : σ → EStateM ε σ α} (moves : ∀ state, Moves leads (next state)) :
    Moves leads (get >>= next) :=
  fun start => moves start start

variable [IsPreorder σ leads]

theorem pure {result : α} : Moves leads (Pure.pure result : EStateM ε σ α) :=
  fun start => refl_of leads start

/-- One run after the other. -/
theorem bind {next : α → EStateM ε σ β} (moves : Moves leads step)
    (moves' : ∀ result, Moves leads (next result)) : Moves leads (step >>= next) := by
  intro start
  have first := moves start
  rw [lastState_bind]
  unfold lastState at first
  -- Either the first run ends and the second goes on, or the fault is passed on.
  cases ran : step start with
  | ok result last =>
    rw [ran] at first
    exact trans_of leads first (moves' result last)
  | error fault last =>
    rw [ran] at first
    exact first

/-- A run for each item of a list. -/
theorem forM {items : List α} {round : α → EStateM ε σ Unit}
    (moves : ∀ item ∈ items, Moves leads (round item)) : Moves leads (items.forM round) := by
  induction items with
  | nil => exact pure
  | cons item rest ih =>
    rw [List.forM]
    exact (moves item List.mem_cons_self).bind fun _ =>
      ih fun other member => moves other (List.mem_cons_of_mem _ member)

end Moves

/-- Whether all bounds in the schemas are proper. -/
def SchemaTree.HasProperBounds (tree : SchemaTree) : Prop :=
  ∀ side bound, tree.StatesBound side bound → bound.value.IsProper

namespace Survey

/-- A later survey that has refined all records and forgotten no finding. -/
structure Refines (tree : SchemaTree) (before after : Survey) : Prop where
  ledger : before.ledger.Refines tree after.ledger
  diagnostics : before.diagnostics.items <+: after.diagnostics.items

variable {tree : SchemaTree} {id : RecordId} {schema : SchemaId} {clause : Clause}

instance : IsPreorder Survey (Refines tree) where
  refl survey := ⟨.refl tree survey.ledger, List.prefix_rfl⟩
  trans _ _ _ first second :=
    ⟨first.ledger.trans second.ledger, first.diagnostics.trans second.diagnostics⟩

/-- A part of a survey that refines what was gathered. -/
abbrev Refining {α : Type} (tree : SchemaTree) (part : Surveying α) : Prop :=
  Moves (Refines tree) part

/-- A change of the ledger that refines it. -/
theorem refining_onLedger {α : Type} {change : Ledger → α × Ledger}
    (refines : ∀ ledger : Ledger, ledger.Refines tree (change ledger).2) : Refining tree (onLedger change) :=
  fun start => ⟨refines start.ledger, List.prefix_rfl⟩

/-- A change of one record that leaves its bounds alone and refines it. -/
theorem refines_update {survey : Survey} {change : Record → Record}
    (refined : (survey.ledger.record id).Refined (change (survey.ledger.record id)))
    (unbounded : ∀ side, (change (survey.ledger.record id)).bound side =
      (survey.ledger.record id).bound side) :
    survey.Refines tree (lastState (update id change) survey) :=
  ⟨.update refined fun side _ set => .inl (unbounded side ▸ set), List.prefix_rfl⟩

/-- A finding joins those that were found before. -/
theorem refining_report (found : Diagnostic) : Refining tree (report found) := by
  intro start
  refine ⟨.refl tree start.ledger, ?_⟩
  show start.diagnostics.items <+: (start.diagnostics.push found).items
  unfold Diagnostics.push
  split
  · exact List.prefix_rfl
  · exact List.prefix_append _ _

/-- A finding that is reported or not. -/
theorem refining_unless (fine : Bool) (found : Diagnostic) :
    Refining tree (if fine = true then pure () else report found) := by
  split
  · exact .pure
  · exact refining_report found

theorem refining_checkPattern (location pattern : String) :
    Refining tree (checkPattern location pattern) := refining_unless _ _

theorem refining_checkExamples (location : String) (source : Json) :
    Refining tree (checkExamples location source) := by
  -- Checking an example reports something at most.
  have rounds (complaints : Json → List String) :
      Refining tree ((examplesOf source).forM fun value =>
        if (complaints value).isEmpty = true then pure ()
        else report (.invalidExample location value (complaints value))) :=
    .forM fun _ _ => refining_unless _ _
  unfold checkExamples
  dsimp only
  -- Nothing is checked without examples or without a validator, and the default comes first.
  split
  · split
    · split
      · split
        · exact rounds _
        · exact (refining_report _).bind fun _ => rounds _
      · exact rounds _
    · exact .pure
  · exact .pure

/-- Two parts succeed one after the other if each does. -/
theorem bind_eq_ok {β : Type} {part : Surveying Unit} {next : Unit → Surveying β}
    {start last : Survey} {result : β} :
    (part >>= next) start = .ok result last ↔
      ∃ middle, part start = .ok () middle ∧ next () middle = .ok result last := by
  simp only [Bind.bind, EStateM.bind]
  cases part start with
  | ok result middle => simp
  | error fault middle => simp

/-- A run that begins with a look at a record. -/
theorem record_bind {α : Type} {next : Record → Surveying α} {start : Survey} :
    (record id >>= next) start = next (start.ledger.record id) start := rfl

/-- What becomes of the reference that stands in a schema. -/
inductive Notes (tree : SchemaTree) (schema : SchemaId) (id : RecordId) (start : Survey) :
    EStateM.Result Fault Survey Unit → Prop where
  | idle
      (settled : (start.ledger.record id).schema = some schema →
        (start.ledger.record id).target = none → (tree.schema schema).reference? = none) :
      Notes tree schema id start (.ok () start)
  | note {text : String} {target : SchemaId} (own : (start.ledger.record id).schema = some schema)
      (unset : (start.ledger.record id).target = none)
      (direct : (tree.schema schema).reference? = some (text, target)) :
      Notes tree schema id start
        (update id (fun record =>
          { record with
            target := some target
            references := record.references ++ [text, tree.location target] }) start)

/-- The reference is noted or not. -/
theorem notes_noteReference {start : Survey} :
    Notes tree schema id start (noteReference tree schema id start) := by
  unfold noteReference
  rw [record_bind]
  split
  · rename_i open'
    -- The record has no reference yet, so a direct one is noted.
    cases direct : (tree.schema schema).reference? with
    | none => exact .idle fun _ _ => direct
    | some reference => exact .note open'.1 open'.2 direct
  · rename_i closed
    exact .idle fun own unset => absurd ⟨own, unset⟩ closed

theorem refining_noteReference (schema : SchemaId) (id : RecordId) :
    Refining tree (noteReference tree schema id) := by
  intro start
  have notes : Notes tree schema id start (noteReference tree schema id start) :=
    notes_noteReference
  unfold lastState
  generalize noteReference tree schema id start = result at notes
  -- A reference is set where none was, which refines the record.
  cases notes with
  | idle _ => exact refl_of _ start
  | note own unset direct =>
    exact refines_update (Record.refined_target unset _ _) fun side => by cases side <;> rfl

theorem refining_noteTitles (schema : Schema) (id : RecordId) :
    Refining tree (noteTitles schema id) :=
  fun _ => refines_update (Record.refined_titles _ _) fun side => by cases side <;> rfl

theorem refining_nullable (id : RecordId) :
    Refining tree (update id fun record => { record with nullable := some true }) :=
  fun _ => refines_update Record.refined_nullable fun side => by cases side <;> rfl

/-- A keyword without schemas inside is absorbed, or its fault is passed on. -/
theorem refining_absorb
    (stated : ∀ side bound, clause.keyword = .bound side bound → tree.StatesBound side bound)
    (proper : tree.HasProperBounds) :
    Refining tree (do
      match (← record id).absorb clause.location clause.keyword with
      | .ok merged => update id fun _ => merged
      | .error fault => throw fault) := by
  intro start
  show start.Refines tree (lastState (match (start.ledger.record id).absorb clause.location
    clause.keyword with | .ok merged => _ | .error fault => _ : Surveying Unit) start)
  -- The keyword is absorbed or ends the survey.
  split
  · rename_i merged absorbed
    refine ⟨.update (Record.refined_absorb absorbed fun side bound same =>
      proper side bound (stated side bound same)) fun side held set => ?_, List.prefix_rfl⟩
    -- The tighter of two bounds is one of them.
    rcases (Record.absorbs_of_absorb absorbed).bound_eq side with ⟨bound, same, merged⟩ | ⟨kept, -⟩
    · rw [merged] at set
      obtain rfl := Option.some.inj set
      rcases Bound.tighter_mem side ((start.ledger.record id).bound side) bound with held | new
      · exact .inl held
      · rw [new]
        exact .inr (stated side bound same)
    · -- A bound on another side is the one that was held.
      exact .inl (kept ▸ set)
  · exact refl_of _ start

section

variable {visit : SchemaId → RecordId → Surveying Unit}

/-- What becomes of additional properties, by what is settled about them and by the form of the
schema. -/
inductive SettlesAdditional (tree : SchemaTree) (visit : SchemaId → RecordId → Surveying Unit)
    (schema : SchemaId) (id : RecordId) (start : Survey) : EStateM.Result Fault Survey Unit → Prop where
  | forbidden (held : (start.ledger.record id).additional = some .forbidden) :
      SettlesAdditional tree visit schema id start (.ok () start)
  | settled (body : (tree.schema schema).body = .boolean true)
      (held : (start.ledger.record id).additional ≠ none) :
      SettlesAdditional tree visit schema id start (.ok () start)
  | forbid (body : (tree.schema schema).body = .boolean false)
      (open' : (start.ledger.record id).additional ≠ some .forbidden) :
      SettlesAdditional tree visit schema id start
        (update id (fun record => { record with additional := some .forbidden }) start)
  | allow (body : (tree.schema schema).body = .boolean true)
      (unset : (start.ledger.record id).additional = none) :
      SettlesAdditional tree visit schema id start
        (update id (fun record => { record with additional := some .allowed }) start)
  | enter (inner : RecordId) (body : ∀ value, (tree.schema schema).body ≠ .boolean value)
      (held : (start.ledger.record id).additional = some (.schema inner)) :
      SettlesAdditional tree visit schema id start (visit schema inner start)
  | attach (body : ∀ value, (tree.schema schema).body ≠ .boolean value)
      (open' : (start.ledger.record id).additional = none ∨
        (start.ledger.record id).additional = some .allowed) :
      SettlesAdditional tree visit schema id start
        (visit schema ⟨start.ledger.size⟩
          { start with
            ledger := (start.ledger.create (some schema) none).2.update id
              (Slot.additional.fill ⟨start.ledger.size⟩) })

/-- A schema for additional properties does one of these. -/
theorem settlesAdditional_mergeAdditional {start : Survey} :
    SettlesAdditional tree visit schema id start (mergeAdditional tree visit schema id start) := by
  unfold mergeAdditional
  rw [record_bind]
  -- The cases are those of what the record holds, and under each the bodies that the schema may have.
  cases held : (start.ledger.record id).additional with
  | none =>
    cases body : (tree.schema schema).body with
    | boolean allowed =>
      cases allowed with
      | true => exact .allow body held
      | false => exact .forbid body (by simp [held])
    | object source clauses => exact .attach (by simp [body]) (.inl held)
  | some additional =>
    cases additional with
    | forbidden => exact .forbidden held
    | allowed =>
      cases body : (tree.schema schema).body with
      | boolean allowed =>
        cases allowed with
        | true => exact .settled body (by simp [held])
        | false => exact .forbid body (by simp [held])
      | object source clauses => exact .attach (by simp [body]) (.inr held)
    | schema inner =>
      cases body : (tree.schema schema).body with
      | boolean allowed =>
        cases allowed with
        | true => exact .settled body (by simp [held])
        | false => exact .forbid body (by simp [held])
      | object source clauses => exact .enter inner (by simp [body]) held

/-- What is settled about the additional properties of a record moves upwards. -/
theorem refines_additional {survey : Survey} {additional : Option AdditionalProperties}
    (rises : AdditionalProperties.Rises (survey.ledger.record id).additional additional) :
    survey.Refines tree
      (lastState (update id fun record => { record with additional }) survey) :=
  refines_update (Record.refined_additional rises) fun side => by cases side <;> rfl

theorem refining_addBranches (visits : ∀ schema id, Refining tree (visit schema id)) (id : RecordId)
    (branches : List SchemaId) : Refining tree (addBranches visit id branches) := by
  refine .forM fun branch _ => .look fun survey => ?_
  dsimp only
  split
  · exact .pure
  · refine (refining_onLedger fun ledger => .create tree ledger _ _).bind fun record => ?_
    refine (visits branch record).bind fun _ start => ?_
    exact refines_update (Record.refined_branch _) fun side => by cases side <;> rfl

theorem refining_mergeAdditional (visits : ∀ schema id, Refining tree (visit schema id))
    (schema : SchemaId) (id : RecordId) : Refining tree (mergeAdditional tree visit schema id) := by
  intro start
  have settles : SettlesAdditional tree visit schema id start
      (mergeAdditional tree visit schema id start) :=
    settlesAdditional_mergeAdditional
  unfold lastState
  generalize mergeAdditional tree visit schema id start = result at settles
  -- The cases are those of what is done about additional properties.
  cases settles with
  | forbidden _ => exact refl_of _ start
  | settled _ _ => exact refl_of _ start
  | forbid _ _ => exact refines_additional (.forbid _)
  -- Allowing refines what was open.
  | allow _ unset =>
    refine refines_additional ?_
    rw [unset]
    exact .of_none _
  | enter inner _ _ => exact visits schema inner start
  | attach _ open' =>
    -- A place that was open is refined by any record, and the visit refines it further.
    have attached : start.Refines tree
        { start with
          ledger := (start.ledger.create (some schema) none).2.update id
            (Slot.additional.fill ⟨start.ledger.size⟩) } := by
      refine ⟨.attach _ _ (Record.refined_additional ?_) fun _ side => ?_, List.prefix_rfl⟩
      · -- The place was unset or allowed.
        rcases open' with unset | allowed
        · rw [unset]
          exact .of_none _
        · rw [allowed]
          exact .of_allowed _
      · cases side <;> rfl
    exact trans_of (Refines tree) attached (visits schema ⟨start.ledger.size⟩ _)

/-- A keyword refines what was gathered, whatever it holds. -/
theorem refining_mergeClause (visits : ∀ schema id, Refining tree (visit schema id))
    (stated : ∀ side bound, clause.keyword = .bound side bound → tree.StatesBound side bound)
    (proper : tree.HasProperBounds)
    (isBusy : SchemaId → Bool) (id : RecordId) :
    Refining tree (mergeClause tree visit isBusy id clause) := by
  -- Each keyword is a sequence of parts that refine what was gathered.
  unfold mergeClause
  split
  · -- A reference may be busy, in which case nothing is done.
    split
    · exact .pure
    · exact visits _ _
  · -- Combined schemas are visited one after the other.
    exact .forM fun branch _ => visits branch id
  · split
    · exact (visits _ _).bind fun _ => refining_nullable id
    · exact refining_report _
  · split
    · exact (visits _ _).bind fun _ => refining_nullable id
    · exact refining_addBranches visits id _
  · -- What has to hold a schema first makes a record for it, which refines the ledger.
    exact (refining_onLedger fun ledger => .negation tree ledger id).bind fun _ => visits _ _
  · exact .forM fun entry _ =>
      (refining_onLedger fun ledger => .property tree ledger id _ _).bind fun _ => visits _ _
  · refine .forM fun entry _ => (refining_checkPattern _ _).bind fun _ => ?_
    exact (refining_onLedger fun ledger => .patternProperty tree ledger id _ _).bind fun _ =>
      visits _ _
  · exact refining_mergeAdditional visits _ id
  · exact (refining_onLedger fun ledger => .items tree ledger id _).bind fun _ => visits _ _
  · -- Some keywords are checked before they are absorbed.
    split
    · exact (refining_checkPattern _ _).bind fun _ => refining_absorb stated proper
    · exact refining_absorb stated proper

end

/-- A visit refines what was gathered. -/
theorem refining_visit (proper : tree.HasProperBounds)
    (opened : List SchemaId) (schema : SchemaId) (id : RecordId) :
    Refining tree (visit tree opened schema id) := by
  -- The list of open schemas grows shorter with every schema that is entered.
  induction opened, schema, id using visit.induct with
  | case1 opened schema id ih =>
    rw [visit]
    refine (refining_noteReference schema id).bind fun _ => ?_
    split
    · -- A boolean schema only admits null.
      exact refining_nullable id
    · rename_i source clauses body
      split
      · rename_i isOpen
        refine (refining_noteTitles _ id).bind fun _ => ?_
        refine (Moves.forM fun clause member => ?_).bind fun _ => refining_checkExamples _ source
        -- The keyword stands in the schema, so its bounds are stated.
        refine refining_mergeClause (ih isOpen) (fun side bound same => ?_) proper _ id
        exact ⟨schema, clause, by simpa [Schema.clauses, body] using member, same⟩
      · exact .pure

/-- A schema or a single keyword that is merged into any record of any survey refines all records
that were there, even if it fails on the way. -/
theorem refines_lastState (proper : tree.HasProperBounds) (survey : Survey) (id : RecordId) :
    (∀ schema, survey.Refines tree (lastState (merge tree schema id) survey)) ∧
      ∀ schema, ∀ clause ∈ (tree.schema schema).clauses,
        survey.Refines tree
          (lastState (mergeClause tree (visit tree tree.ids) (isBusy tree tree.ids) id clause)
            survey) := by
  -- A schema is merged by a visit for which no schema is closed yet.
  have visits (schema : SchemaId) (id : RecordId) : Refining tree (visit tree tree.ids schema id) :=
    refining_visit proper tree.ids schema id
  refine ⟨fun schema => visits schema id survey, fun schema clause member => ?_⟩
  exact refining_mergeClause visits (fun _ _ same => ⟨schema, clause, member, same⟩) proper _ id survey

/-- Two schemas for one value with different bounds, which do not agree on a constant. -/
def clashingTree : SchemaTree where
  schemas := #[
    ⟨"a", .object .null [
      ⟨"a", .bound .minimum ⟨.decimal ⟨false, 5, -1, by decide⟩, true⟩⟩,
      ⟨"a", .constant (.integer 1)⟩, ⟨"a", .allOf [⟨1⟩]⟩]⟩,
    ⟨"b", .object .null [⟨"b", .bound .minimum ⟨.whole 3, false⟩⟩, ⟨"b", .constant (.integer 2)⟩]⟩]

/-- A survey with one record, which has a lower bound already. -/
def boundedSurvey : Survey where
  ledger := { records := #[{ minimum := some ⟨.whole 2, true⟩ }] }

/-- The bound that was merged before the constants clashed is kept, and it refines the first one. -/
theorem refines_lastState_clashing :
    ∃ fault last, merge clashingTree ⟨0⟩ ⟨0⟩ boundedSurvey = .error fault last ∧
      (last.ledger.record ⟨0⟩).minimum = some ⟨.whole 3, false⟩ ∧
      boundedSurvey.Refines clashingTree last := by
  have merged : (match merge clashingTree ⟨0⟩ ⟨0⟩ boundedSurvey with
      | .ok _ _ => false
      | .error _ last => (last.ledger.record ⟨0⟩).minimum == some ⟨.whole 3, false⟩) = true := by
    decide +kernel
  -- The bounds of the tree are whole numbers, as can be read off it.
  have proper : clashingTree.HasProperBounds := by
    rintro side bound ⟨⟨inner⟩, clause, stated, same⟩
    rcases inner with _ | _ | n
    · simp only [clashingTree, SchemaTree.schema, Schema.clauses] at stated
      simp at stated
      rcases stated with rfl | rfl | rfl <;> cases same
      decide
    · simp only [clashingTree, SchemaTree.schema, Schema.clauses] at stated
      simp at stated
      rcases stated with rfl | rfl <;> cases same
      decide
    · exact absurd stated List.not_mem_nil
  -- The merge refines what was there, whatever its end.
  have refines := (refines_lastState proper boundedSurvey ⟨0⟩).1 ⟨0⟩
  unfold lastState at refines
  -- It ends with the fault of the clash.
  cases ran : merge clashingTree ⟨0⟩ ⟨0⟩ boundedSurvey with
  | ok result last =>
    rw [ran] at merged
    cases merged
  | error fault last =>
    rw [ran] at merged refines
    exact ⟨fault, last, rfl, by simpa using merged, refines⟩

end Survey

end SchemaClasses
