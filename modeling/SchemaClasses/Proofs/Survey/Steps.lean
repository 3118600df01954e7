import Mathlib.Data.Set.Insert
import Mathlib.Logic.Relation
import SchemaClasses.Proofs.Ledger
import SchemaClasses.Proofs.Run
import SchemaClasses.Survey

/-! A survey is a sequence of small steps, each of which says all that it does to the ledger. -/

namespace SchemaClasses

/-- The record of the schema that additional properties have. -/
def AdditionalProperties.record? : AdditionalProperties → Option RecordId
  | schema record => some record
  | _ => none

/-- The records that lie inside a record. -/
def Record.children (record : Record) : List RecordId :=
  record.properties ++ record.patternProperties.map (·.record)
    ++ (record.additional.bind (·.record?)).toList ++ record.items.toList ++ record.oneOf
    ++ record.negation.toList

/-- A record lies inside another in one of six ways. -/
theorem Record.mem_children {record : Record} {child : RecordId} :
    child ∈ record.children ↔
      child ∈ record.properties ∨ (∃ entry ∈ record.patternProperties, entry.record = child)
        ∨ record.additional = some (.schema child) ∨ record.items = some child
        ∨ child ∈ record.oneOf ∨ record.negation = some child := by
  -- Additional properties hold a child only as a schema.
  have additional : record.additional.bind (·.record?) = some child ↔
      record.additional = some (.schema child) := by
    cases record.additional with
    | none => simp
    | some held => cases held <;> simp [AdditionalProperties.record?]
  simp [children, additional]

/-- The records that a record leads to: those inside it, and the one whose negation it is. -/
def Record.links (record : Record) : List RecordId :=
  record.children ++ record.negationOf.toList

/-- A record leads to the records inside it and to the one whose negation it is. -/
theorem Record.mem_links {record : Record} {link : RecordId} :
    link ∈ record.links ↔ link ∈ record.children ∨ record.negationOf = some link := by
  simp [links]

/-- A place for a record inside another one, other than its negation and its branches. -/
inductive Slot where
  | property (name : String)
  | patternProperty (pattern : String)
  | additional
  | items

namespace Slot

/-- Only properties have names. -/
def name? : Slot → Option String
  | property name => some name
  | _ => none

/-- A record put into the place. -/
def fill (child : RecordId) (record : Record) : Slot → Record
  | property _ => { record with properties := record.properties ++ [child] }
  | patternProperty pattern =>
    { record with patternProperties := record.patternProperties ++ [⟨pattern, child, none⟩] }
  | additional => { record with additional := some (.schema child) }
  | items => { record with items := some child }

/-- Whether the place is still empty. -/
def IsFree (ledger : Ledger) (id : RecordId) : Slot → Prop
  | property name => ledger.property? id name = none
  | patternProperty pattern => ∀ entry ∈ (ledger.record id).patternProperties, entry.pattern ≠ pattern
  | additional => ∀ held, (ledger.record id).additional ≠ some (.schema held)
  | items => (ledger.record id).items = none

end Slot

/-- What one keyword, one reference or one boolean schema makes of a record by itself. -/
inductive Record.Restated (tree : SchemaTree) (record : Record) : Record → Prop where
  | reference {schema : SchemaId} {text : String} {target : SchemaId}
      (own : record.schema = some schema) (unset : record.target = none)
      (direct : (tree.schema schema).reference? = some (text, target)) :
      Restated tree record
        { record with
          target := some target
          references := record.references ++ [text, tree.location target] }
  | titles (schema : Schema) :
      Restated tree record
        { record with
          title := record.title <|> schema.title?
          description := record.description <|> schema.description? }
  | nullable : Restated tree record { record with nullable := some true }
  | forbidden : Restated tree record { record with additional := some .forbidden }
  | allowed (unset : record.additional = none) :
      Restated tree record { record with additional := some .allowed }
  | keyword {location : String} {keyword : Keyword} {merged : Record}
      (absorbed : record.absorb location keyword = .ok merged) : Restated tree record merged

namespace Survey

/-- A moment of a survey: the records it may act on, the branches that are not yet linked to their
record, and the ledger. -/
structure Stage where
  known : Set RecordId
  pending : List (RecordId × RecordId)
  ledger : Ledger

/-- All that a survey does at once. -/
inductive Step (tree : SchemaTree) : Stage → Stage → Prop where
  | learn {stage : Stage} {id link : RecordId} (acts : id ∈ stage.known)
      (linked : link ∈ (stage.ledger.record id).links) :
      Step tree stage { stage with known := insert link stage.known }
  | restate {stage : Stage} {id : RecordId} {merged : Record} (acts : id ∈ stage.known)
      (restated : (stage.ledger.record id).Restated tree merged) :
      Step tree stage { stage with ledger := stage.ledger.update id fun _ => merged }
  | attach {stage : Stage} {id : RecordId} (acts : id ∈ stage.known) (schema : SchemaId)
      {slot : Slot} (free : slot.IsFree stage.ledger id) :
      Step tree stage
        { stage with
          known := insert ⟨stage.ledger.size⟩ stage.known
          ledger := (stage.ledger.create (some schema) slot.name?).2.update id
            (slot.fill ⟨stage.ledger.size⟩) }
  | negate {stage : Stage} {id : RecordId} (acts : id ∈ stage.known)
      (positive : (stage.ledger.record id).negationOf = none)
      (unset : (stage.ledger.record id).negation = none) :
      Step tree stage
        { stage with
          known := insert ⟨stage.ledger.size⟩ stage.known
          ledger := (stage.ledger.negation id).2 }
  | openBranch {stage : Stage} {id : RecordId} (acts : id ∈ stage.known) (schema : SchemaId) :
      Step tree stage
        { known := insert ⟨stage.ledger.size⟩ stage.known
          pending := (id, ⟨stage.ledger.size⟩) :: stage.pending
          ledger := (stage.ledger.create (some schema) none).2 }
  | linkBranch {stage : Stage} {id branch : RecordId} {rest : List (RecordId × RecordId)}
      (acts : id ∈ stage.known) (latest : stage.pending = (id, branch) :: rest) :
      Step tree stage
        { stage with
          pending := rest
          ledger := stage.ledger.update id fun held => { held with oneOf := held.oneOf ++ [branch] } }

/-- Any number of steps. -/
abbrev Steps (tree : SchemaTree) : Stage → Stage → Prop := Relation.ReflTransGen (Step tree)

/-- A survey that got from a stage to its end, with all branches linked that were opened. -/
def Finished (tree : SchemaTree) (start : Stage) (last : Survey) : Prop :=
  ∃ known, start.known ⊆ known ∧ Steps tree start ⟨known, start.pending, last.ledger⟩

/-- A survey that stopped somewhere after a stage. -/
def Stopped (tree : SchemaTree) (start : Stage) (last : Survey) : Prop :=
  ∃ stage, stage.ledger = last.ledger ∧ Steps tree start stage

/-- A part of a survey that acts on a record takes steps only. -/
def Works (tree : SchemaTree) (id : RecordId) (part : Surveying Unit) : Prop :=
  ∀ survey start, start.ledger = survey.ledger → id ∈ start.known →
    Ends part survey (fun _ => Finished tree start) (Stopped tree start)

/-- Reading a record changes nothing. -/
@[simp] theorem ends_record {id : RecordId} {start : Survey} {done : Record → Survey → Prop}
    {failed : Survey → Prop} :
    Ends (record id) start done failed ↔ done (start.ledger.record id) start := Iff.rfl

/-- A change of one record and of nothing else. -/
@[simp] theorem ends_update {id : RecordId} {change : Record → Record} {start : Survey}
    {done : Unit → Survey → Prop} {failed : Survey → Prop} :
    Ends (update id change) start done failed ↔
      done () { start with ledger := start.ledger.update id change } := Iff.rfl

/-- A change of the ledger and of nothing else. -/
@[simp] theorem ends_onLedger {α : Type} {change : Ledger → α × Ledger} {start : Survey}
    {done : α → Survey → Prop} {failed : Survey → Prop} :
    Ends (onLedger change) start done failed ↔
      done (change start.ledger).1 { start with ledger := (change start.ledger).2 } := Iff.rfl

/-- A finding and nothing else. -/
@[simp] theorem ends_report {found : Diagnostic} {start : Survey} {done : Unit → Survey → Prop}
    {failed : Survey → Prop} :
    Ends (report found) start done failed ↔
      done () { start with diagnostics := start.diagnostics.push found } := Iff.rfl

variable {tree : SchemaTree} {id : RecordId} {start : Stage} {survey last : Survey}

/-- Nothing done is a survey that got to its end. -/
theorem Finished.refl (current : start.ledger = survey.ledger) : Finished tree start survey :=
  ⟨start.known, subset_rfl, by rw [← current]⟩

/-- One step is a survey that got to its end, if no branch is left open. -/
theorem Finished.step {next : Stage} (taken : Step tree start next) (kept : next.pending = start.pending)
    (grown : start.known ⊆ next.known) (current : next.ledger = last.ledger) :
    Finished tree start last :=
  ⟨next.known, grown, by rw [← kept, ← current]; exact .single taken⟩

/-- A survey that goes on from a later stage with the same branches open. -/
theorem Finished.trans {known : Set RecordId} {ledger : Ledger} (grown : start.known ⊆ known)
    (steps : Steps tree start ⟨known, start.pending, ledger⟩)
    (further : Finished tree ⟨known, start.pending, ledger⟩ last) : Finished tree start last := by
  obtain ⟨known', grown', steps'⟩ := further
  exact ⟨known', grown.trans grown', steps.trans steps'⟩

/-- A survey that stopped after a later stage. -/
theorem Stopped.trans {next : Stage} (steps : Steps tree start next)
    (further : Stopped tree next last) : Stopped tree start last := by
  obtain ⟨stage, same, steps'⟩ := further
  exact ⟨stage, same, steps.trans steps'⟩

/-- A survey that got to its end has stopped there. -/
theorem Finished.stopped (finished : Finished tree start last) : Stopped tree start last := by
  obtain ⟨known, -, steps⟩ := finished
  exact ⟨_, rfl, steps⟩

/-- After a part that got to its end, a part that works goes on. -/
theorem Works.after {part : Surveying Unit} (works : Works tree id part) (acts : id ∈ start.known)
    (first : Finished tree start survey) :
    Ends part survey (fun _ => Finished tree start) (Stopped tree start) := by
  obtain ⟨known, grown, steps⟩ := first
  exact (works survey ⟨known, start.pending, survey.ledger⟩ rfl (grown acts)).imp
    (fun _ _ done => done.trans grown steps) (fun _ failed => failed.trans steps)

/-- Nothing to do takes no steps. -/
theorem works_pure : Works tree id (pure ()) := fun _ _ current _ => Finished.refl current

/-- Two parts one after the other. -/
theorem Works.bind {first : Surveying Unit} {second : Unit → Surveying Unit}
    (works : Works tree id first) (works' : ∀ result, Works tree id (second result)) :
    Works tree id (first >>= second) := by
  intro survey start current acts
  rw [ends_bind]
  exact (works survey start current acts).imp (fun result _ done => (works' result).after acts done)
    (fun _ failed => failed)

/-- A part for each item of a list. -/
theorem Works.forM {α : Type} {items : List α} {round : α → Surveying Unit}
    (works : ∀ item ∈ items, Works tree id (round item)) : Works tree id (items.forM round) := by
  intro survey start current acts
  exact Ends.forM _ (Finished.refl current) fun item member _ done => (works item member).after acts done

/-- After one step, a part that works on what is known by then goes on. -/
theorem Works.enter {part : Surveying Unit} {next : Stage} {inner : RecordId}
    (works : Works tree inner part) (taken : Step tree start next)
    (kept : next.pending = start.pending) (grown : start.known ⊆ next.known)
    (current : next.ledger = survey.ledger) (acts : inner ∈ next.known) :
    Ends part survey (fun _ => Finished tree start) (Stopped tree start) := by
  refine (works survey next current acts).imp (fun _ last done => ?_)
    (fun last failed => failed.trans (.single taken))
  obtain ⟨known, grown', steps⟩ := done
  exact ⟨known, grown.trans grown', .head taken (kept ▸ steps)⟩

/-- A part goes on at a record that a known one leads to. -/
theorem Works.learn {part : Surveying Unit} {known : Set RecordId} {pending : List (RecordId × RecordId)}
    {inner : RecordId} (works : Works tree inner part) (acts : id ∈ known)
    (linked : inner ∈ (survey.ledger.record id).links) :
    Ends part survey (fun _ => Finished tree ⟨known, pending, survey.ledger⟩)
      (Stopped tree ⟨known, pending, survey.ledger⟩) :=
  works.enter (.learn acts linked) rfl (Set.subset_insert _ _) rfl (Set.mem_insert _ _)

/-- A part goes on at a new record that fills a place in a known one. -/
theorem Works.attach {part : Surveying Unit} {known : Set RecordId}
    {pending : List (RecordId × RecordId)} (works : Works tree ⟨survey.ledger.size⟩ part)
    (acts : id ∈ known) (schema : SchemaId) {slot : Slot} (free : slot.IsFree survey.ledger id) :
    Ends part
      { survey with
        ledger := (survey.ledger.create (some schema) slot.name?).2.update id
          (slot.fill ⟨survey.ledger.size⟩) }
      (fun _ => Finished tree ⟨known, pending, survey.ledger⟩)
      (Stopped tree ⟨known, pending, survey.ledger⟩) :=
  works.enter (.attach acts schema free) rfl (Set.subset_insert _ _) rfl (Set.mem_insert _ _)

/-- A record restated is one step. -/
theorem works_restate {change : Record → Record}
    (restated : ∀ record, Record.Restated tree record (change record)) :
    Works tree id (update id change) := by
  intro survey start current acts
  refine Finished.step (.restate acts (restated (start.ledger.record id))) rfl subset_rfl ?_
  rw [current]
  exact Ledger.update_congr rfl

/-- A finding is no step. -/
theorem works_report {found : Diagnostic} : Works tree id (report found) :=
  fun _ _ current _ => Finished.refl current

/-- A pattern that is reported or not changes no records. -/
theorem ledger_checkPattern {location pattern : String} (survey : Survey) :
    Ends (checkPattern location pattern) survey (fun _ last => last.ledger = survey.ledger)
      (fun _ => False) := by
  unfold checkPattern
  split
  · exact rfl
  · exact rfl

/-- Findings about examples change no records. -/
theorem ledger_checkExamples {location : String} {source : Json} (survey : Survey) :
    Ends (checkExamples location source) survey (fun _ last => last.ledger = survey.ledger)
      (fun _ => False) := by
  -- Whatever is complained about, each example is reported or not, which is all that happens.
  have reported (found : Diagnostic) (valid : Bool) (start : Survey)
      (same : start.ledger = survey.ledger) :
      Ends (if valid = true then pure () else report found) start
        (fun _ last => last.ledger = survey.ledger) (fun _ => False) := by
    split
    · exact same
    · exact same
  have rounds (complaints : Json → List String) (start : Survey)
      (same : start.ledger = survey.ledger) :
      Ends ((examplesOf source).forM fun value =>
          if (complaints value).isEmpty = true then pure ()
          else report (.invalidExample location value (complaints value))) start
        (fun _ last => last.ledger = survey.ledger) (fun _ => False) :=
    Ends.forM _ same fun value _ state same => reported _ _ state same
  unfold checkExamples
  dsimp only
  split
  · split
    · split
      · split
        · exact rounds _ survey rfl
        · -- The default comes before the rounds, and it is reported or not.
          rw [ends_bind]
          exact rounds _ _ rfl
      · exact rounds _ survey rfl
    · exact rfl
  · exact rfl

/-- A part that changes no records takes no steps. -/
theorem works_of_ledger_eq {part : Surveying Unit}
    (same : ∀ survey : Survey, Ends part survey (fun _ last => last.ledger = survey.ledger)
      (fun _ => False)) : Works tree id part :=
  fun survey _ current _ => (same survey).imp
    (fun _ _ same => Finished.refl (current.trans same.symm)) fun _ failed => failed.elim

/-- A pattern that is reported or not is no step. -/
theorem works_checkPattern {location pattern : String} :
    Works tree id (checkPattern location pattern) :=
  works_of_ledger_eq ledger_checkPattern

/-- Findings about examples are no steps. -/
theorem works_checkExamples {location : String} {source : Json} :
    Works tree id (checkExamples location source) :=
  works_of_ledger_eq ledger_checkExamples

/-- A reference is noted in one step, if there is one to note. -/
theorem works_noteReference {schema : SchemaId} : Works tree id (noteReference tree schema id) := by
  intro survey start current acts
  simp only [noteReference, ends_bind, ends_record]
  split
  · -- The record is for this schema and has no target yet.
    rename_i open_
    split
    · rename_i text target direct
      rw [← current] at open_
      refine Finished.step (.restate acts (.reference open_.1 open_.2 direct)) rfl subset_rfl ?_
      rw [current]
      exact Ledger.update_congr rfl
    · -- The schema has no reference, so nothing happens.
      exact Finished.refl current
  · exact Finished.refl current

/-- Titles are noted in one step. -/
theorem works_noteTitles {schema : Schema} : Works tree id (noteTitles schema id) :=
  works_restate fun _ => .titles schema

/-- A nullable record is marked in one step. -/
theorem works_nullable :
    Works tree id (update id fun record => { record with nullable := some true }) :=
  works_restate fun _ => .nullable

section Parts

variable {visit : SchemaId → RecordId → Surveying Unit}

/-- A branch is opened, surveyed and linked. -/
theorem works_addBranches (visits : ∀ schema record, Works tree record (visit schema record))
    {branches : List SchemaId} : Works tree id (addBranches visit id branches) := by
  refine Works.forM fun branch _ => ?_
  rintro survey ⟨known, pending, _⟩ rfl acts
  simp only [ends_bind, ends_get]
  split
  · -- A known branch is no step at all.
    exact Finished.refl rfl
  · simp only [ends_bind, ends_onLedger, ends_update]
    -- The branch stays pending while it is surveyed, so its link is the next step after that.
    have opened : Step tree ⟨known, pending, survey.ledger⟩ _ := .openBranch acts branch
    refine (visits branch _ _ _ rfl (Set.mem_insert _ _)).imp
      (fun _ last done => ?_) (fun last failed => failed.trans (.single opened))
    obtain ⟨known', grown, steps⟩ := done
    -- What was known stays known during the survey of the branch.
    have acts' : id ∈ known' := grown (Set.mem_insert_of_mem _ acts)
    have linked : Step tree ⟨known', (id, ⟨survey.ledger.size⟩) :: pending, last.ledger⟩ _ :=
      .linkBranch acts' rfl
    exact ⟨known', (Set.subset_insert _ _).trans grown, (steps.head opened).tail linked⟩

/-- A schema for additional properties is settled, or surveyed into the record that stands for
them. -/
theorem works_mergeAdditional (visits : ∀ schema record, Works tree record (visit schema record))
    {schema : SchemaId} : Works tree id (mergeAdditional tree visit schema id) := by
  rintro survey ⟨known, pending, _⟩ rfl acts
  simp only [mergeAdditional, ends_bind, ends_record]
  split
  -- Properties that are forbidden stay so, and a record that stands for them is filled further.
  · exact Finished.refl rfl
  · exact works_restate (fun _ => .forbidden) survey _ rfl acts
  · exact Finished.refl rfl
  · -- Nothing was said of them, so they may be allowed now.
    rename_i unset _
    exact Finished.step (.restate acts (.allowed unset)) rfl subset_rfl (Ledger.update_congr rfl)
  · -- The record that stands for them is linked, and the visit goes on there.
    rename_i held stands _ _
    have linked : held ∈ (survey.ledger.record id).links := by
      simp [Record.links, Record.children, stands, AdditionalProperties.record?]
    exact (visits schema held).learn acts linked
  · simp only [ends_bind, ends_onLedger, ends_update]
    -- No schema stands there, so the place is free for a record.
    rename_i noSchema _ _ _
    have free : Slot.additional.IsFree survey.ledger id := noSchema
    exact (visits schema _).attach acts schema free

/-- A negation is there already, or made and linked at once. -/
theorem works_negation {schema : SchemaId}
    (visits : ∀ record, Works tree record (visit schema record)) :
    Works tree id (do
      let negation ← onLedger (·.negation id)
      visit schema negation) := by
  rintro survey ⟨known, pending, _⟩ rfl acts
  simp only [ends_bind, ends_onLedger]
  -- The negation of a negation is the record that it negates.
  cases positive : (survey.ledger.record id).negationOf with
  | some origin =>
    have linked : origin ∈ (survey.ledger.record id).links := by simp [Record.links, positive]
    simp only [Ledger.negation, positive]
    exact (visits _).learn acts linked
  | none =>
    -- A positive record has its negation already, or it gets one.
    cases unset : (survey.ledger.record id).negation with
    | some negation =>
      have linked : negation ∈ (survey.ledger.record id).links := by
        simp [Record.links, Record.children, unset]
      simp only [Ledger.negation, positive, unset]
      exact (visits _).learn acts linked
    | none =>
      refine (visits _).enter (.negate acts positive unset) rfl (Set.subset_insert _ _) rfl ?_
      simp [Ledger.negation_of_unset positive unset]

/-- A property is there already, or made and linked at once. -/
theorem works_property {name : String} {schema : SchemaId}
    (visits : ∀ record, Works tree record (visit schema record)) :
    Works tree id (do
      let property ← onLedger (·.property id name schema)
      visit schema property) := by
  rintro survey ⟨known, pending, _⟩ rfl acts
  simp only [ends_bind, ends_onLedger, Ledger.property]
  split
  · -- The property is linked in the record.
    rename_i property found
    have linked : property ∈ (survey.ledger.record id).links := by
      simp [Record.links, Record.children, List.mem_of_find?_eq_some found]
    exact (visits _).learn acts linked
  · -- No property has the name, so its place is free.
    rename_i absent
    have free : (Slot.property name).IsFree survey.ledger id := absent
    exact (visits _).attach acts schema free

/-- The value of a pattern is there already, or made and linked at once. -/
theorem works_patternProperty {pattern : String} {schema : SchemaId}
    (visits : ∀ record, Works tree record (visit schema record)) :
    Works tree id (do
      let value ← onLedger (·.patternProperty id pattern schema)
      visit schema value) := by
  rintro survey ⟨known, pending, _⟩ rfl acts
  simp only [ends_bind, ends_onLedger, Ledger.patternProperty]
  split
  · -- As with properties, by the entry of the pattern.
    rename_i entry found
    have linked : entry.record ∈ (survey.ledger.record id).links := by
      have member := List.mem_map_of_mem (f := (·.record)) (List.mem_of_find?_eq_some found)
      simp [Record.links, Record.children, member]
    exact (visits _).learn acts linked
  · rename_i absent
    have free : (Slot.patternProperty pattern).IsFree survey.ledger id := by
      simpa [Slot.IsFree] using absent
    exact (visits _).attach acts schema free

/-- The items are there already, or made and linked at once. -/
theorem works_items {schema : SchemaId}
    (visits : ∀ record, Works tree record (visit schema record)) :
    Works tree id (do
      let items ← onLedger (·.items id schema)
      visit schema items) := by
  rintro survey ⟨known, pending, _⟩ rfl acts
  simp only [ends_bind, ends_onLedger, Ledger.items]
  split
  · rename_i items found
    have linked : items ∈ (survey.ledger.record id).links := by
      simp [Record.links, Record.children, found]
    exact (visits _).learn acts linked
  · rename_i absent
    have free : Slot.items.IsFree survey.ledger id := absent
    exact (visits _).attach acts schema free

/-- A keyword without schemas inside is absorbed in one step, or its fault is passed on. -/
theorem works_absorb {location : String} {keyword : Keyword} :
    Works tree id (do
      match (← record id).absorb location keyword with
      | .ok merged => update id fun _ => merged
      | .error fault => throw fault) := by
  rintro survey ⟨known, pending, _⟩ rfl acts
  simp only [ends_bind, ends_record]
  split
  · -- A keyword that is absorbed restates the record.
    rename_i merged absorbed
    exact Finished.step (.restate acts (.keyword absorbed)) rfl subset_rfl rfl
  · exact (Finished.refl rfl).stopped

/-- A keyword takes steps only, whatever it holds. -/
theorem works_mergeClause (visits : ∀ schema record, Works tree record (visit schema record))
    {isBusy : SchemaId → Bool} {clause : Clause} :
    Works tree id (mergeClause tree visit isBusy id clause) := by
  unfold mergeClause
  split
  · -- A reference is followed unless its target is being visited.
    split
    · exact works_pure
    · exact visits _ _
  · exact Works.forM fun branch _ => visits branch id
  · split
    · exact (visits _ _).bind fun _ => works_nullable
    · exact works_report
  · -- A branch that only admits null leaves the other one to be visited.
    split
    · exact (visits _ _).bind fun _ => works_nullable
    · exact works_addBranches visits
  · exact works_negation fun record => visits _ record
  · -- What stands in places is visited there.
    exact Works.forM fun entry _ => works_property fun record => visits entry.2 record
  · refine Works.forM fun entry _ => works_checkPattern.bind fun _ => ?_
    exact works_patternProperty fun record => visits entry.2 record
  · exact works_mergeAdditional visits
  · exact works_items fun record => visits _ record
  · split
    · exact works_checkPattern.bind fun _ => works_absorb
    · exact works_absorb

end Parts

/-- A visit takes steps only, which start from the record that it fills. -/
theorem works_visit (opened : List SchemaId) (schema : SchemaId) (id : RecordId) :
    Works tree id (visit tree opened schema id) := by
  -- The list of open schemas grows shorter with every schema that is entered.
  induction opened, schema, id using visit.induct with
  | case1 opened schema id ih =>
    rw [visit]
    refine works_noteReference.bind fun _ => ?_
    split
    · exact works_nullable
    · split
      · -- The keywords of an open schema come between its titles and its examples.
        rename_i isOpen
        refine works_noteTitles.bind fun _ => ?_
        refine (Works.forM fun clause _ => ?_).bind fun _ => works_checkExamples
        exact works_mergeClause (ih isOpen)
      · exact works_pure

end Survey

end SchemaClasses
