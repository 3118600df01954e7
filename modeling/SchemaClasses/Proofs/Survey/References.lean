import SchemaClasses.Proofs.Record
import SchemaClasses.Proofs.Survey.Steps

/-! The link of a surveyed record: it is the reference that stands directly in the schema that the record
was made for. A reference in a branch is followed or left out, but never noted. -/

namespace SchemaClasses

/-- The target of the reference that stands directly in a schema. -/
def SchemaTree.target? (tree : SchemaTree) (schema : SchemaId) : Option SchemaId :=
  (tree.schema schema).reference?.map (·.2)

/-- What decides whether a record holds the link that it should. -/
def Record.standing (record : Record) : Option SchemaId × Option SchemaId × Option RecordId :=
  (record.schema, record.target, record.negationOf)

/-- Whether a record links to the target of the reference in its own schema, and to nothing if there is no
reference in it. A negation is visited for other schemas than its own, so it may lack the link. -/
def Record.IsLinked (tree : SchemaTree) (record : Record) : Prop :=
  record.target = record.schema.bind tree.target? ∨
    record.target = none ∧ record.negationOf.isSome

namespace Record

variable {tree : SchemaTree} {record other : Record}

/-- A record that stands as another one holds the same link. -/
theorem IsLinked.congr (linked : record.IsLinked tree) (same : other.standing = record.standing) :
    other.IsLinked tree := by
  simp only [standing, Prod.mk.injEq] at same
  obtain ⟨schema, target, negationOf⟩ := same
  rw [IsLinked, schema, target, negationOf]
  exact linked

end Record

namespace Ledger

variable {tree : SchemaTree} {ledger : Ledger} {schema : SchemaId} {id other : RecordId}
variable {change : Record → Record}

/-- Whether all records hold the links that they should. -/
def Linked (tree : SchemaTree) (ledger : Ledger) : Prop :=
  ∀ id, (ledger.record id).IsLinked tree

/-- Whether all records hold the links that they should as soon as a record has been visited for a schema:
the record may lack its link if it was made for this very schema. -/
structure Due (tree : SchemaTree) (schema : SchemaId) (id : RecordId) (ledger : Ledger) : Prop where
  others : ∀ other, other ≠ id → (ledger.record other).IsLinked tree
  self : (ledger.record id).IsLinked tree ∨
    (ledger.record id).schema = some schema ∧ (ledger.record id).target = none

namespace Linked

theorem empty : Linked tree {} := fun _ => .inl rfl

/-- Where no link is missing, none is due. -/
theorem due (linked : ledger.Linked tree) : ledger.Due tree schema id :=
  ⟨fun other _ => linked other, .inl (linked id)⟩

/-- Changes that leave a record standing as it was take no link away. -/
theorem update (linked : ledger.Linked tree)
    (kept : (change (ledger.record id)).standing = (ledger.record id).standing) :
    (ledger.update id change).Linked tree :=
  fun other => (linked other).congr (field_update Record.standing kept)

/-- A record that is made for a schema waits for its link. -/
theorem create (linked : ledger.Linked tree) (name : Option String) :
    (ledger.create (some schema) name).2.Due tree schema ⟨ledger.size⟩ where
  others other apart := by
    rw [record_create, if_neg apart]
    exact linked other
  self := by
    rw [record_create, if_pos rfl]
    exact .inr ⟨rfl, rfl⟩

/-- A negation that joins needs no link. -/
theorem negation (linked : ledger.Linked tree) : (ledger.negation id).2.Linked tree := by
  -- The record may be a negation itself, or it may have one; only otherwise one joins.
  cases positive : (ledger.record id).negationOf with
  | some origin =>
    simp only [Ledger.negation, positive]
    exact linked
  | none =>
    cases unset : (ledger.record id).negation with
    | some negation =>
      simp only [Ledger.negation, positive, unset]
      exact linked
    | none =>
      rw [negation_of_unset positive unset]
      refine update (fun other => ?_) rfl
      rw [record_push]
      split
      · -- The new record is a negation, which may go without.
        exact .inr ⟨rfl, rfl⟩
      · exact linked other

end Linked

/-- Changes that leave a record standing as it was leave the same link due. -/
theorem Due.update (due : ledger.Due tree schema id)
    (kept : (change (ledger.record other)).standing = (ledger.record other).standing) :
    (ledger.update other change).Due tree schema id := by
  -- No record stands otherwise than before, whether it changes or not.
  have same (one : RecordId) :
      ((ledger.update other change).record one).standing = (ledger.record one).standing :=
    field_update Record.standing kept
  -- The record is linked or still lacks its link, and both can be seen from how it stands.
  refine ⟨fun one apart => (due.others one apart).congr (same one), ?_⟩
  refine due.self.imp (fun linked => linked.congr (same id)) fun lacking => ?_
  have standing := same id
  simp only [Record.standing, Prod.mk.injEq] at standing
  exact ⟨standing.1.trans lacking.1, standing.2.1.trans lacking.2⟩

end Ledger

namespace Survey

variable {tree : SchemaTree} {schema : SchemaId} {id : RecordId}

/-- Whether a part of a survey leaves all records with the links that they should hold. -/
def Links (tree : SchemaTree) (part : Surveying Unit) : Prop :=
  ∀ survey : Survey, survey.ledger.Linked tree →
    Ends part survey (fun _ last => last.ledger.Linked tree) (fun _ => True)

/-- Whether a visit for a schema settles the link that is due. -/
def SettlesLink (tree : SchemaTree) (visit : SchemaId → RecordId → Surveying Unit) : Prop :=
  ∀ (schema : SchemaId) (id : RecordId) (survey : Survey), survey.ledger.Due tree schema id →
    Ends (visit schema id) survey (fun _ last => last.ledger.Linked tree) (fun _ => True)

/-- One part after the other. -/
theorem Links.bind {first : Surveying Unit} {second : Unit → Surveying Unit}
    (links : Links tree first) (links' : ∀ result, Links tree (second result)) :
    Links tree (first >>= second) := by
  intro survey linked
  rw [ends_bind]
  exact (links survey linked).imp (fun result last linked => links' result last linked)
    fun _ _ => trivial

/-- A part for each item of a list. -/
theorem Links.forM {α : Type} {items : List α} {round : α → Surveying Unit}
    (links : ∀ item ∈ items, Links tree (round item)) : Links tree (items.forM round) :=
  fun _ linked => Ends.forM (fun state => state.ledger.Linked tree) linked
    fun item member state linked => links item member state linked

/-- A part that changes no records. -/
theorem links_of_ledger_eq {part : Surveying Unit}
    (same : ∀ survey : Survey, Ends part survey (fun _ last => last.ledger = survey.ledger)
      (fun _ => False)) : Links tree part :=
  fun survey linked => (same survey).imp (fun _ _ same => same ▸ linked) fun _ _ => trivial

/-- A change that leaves every record standing as it was. -/
theorem links_update {change : Record → Record}
    (kept : ∀ record : Record, (change record).standing = record.standing) :
    Links tree (update id change) := by
  intro survey linked
  rw [ends_update]
  exact linked.update (kept _)

/-- A value that may be null links to what it did. -/
theorem links_nullable : Links tree (update id fun record => { record with nullable := some true }) :=
  links_update fun _ => rfl

/-- A keyword that is absorbed leaves the record standing as it was. -/
theorem links_absorb {location : String} {keyword : Keyword} :
    Links tree (do
      match (← record id).absorb location keyword with
      | .ok merged => update id fun _ => merged
      | .error fault => throw fault) := by
  intro survey linked
  simp only [ends_bind, ends_record]
  split
  · -- The merged record stands as before.
    rename_i merged absorbed
    rw [ends_update]
    refine linked.update ?_
    rw [← Record.restate_absorb absorbed]
    rfl
  · trivial

/-- A reference that stands directly in the schema of the record is the link that was due. -/
theorem linked_noteReference {survey : Survey} (due : survey.ledger.Due tree schema id) :
    Ends (noteReference tree schema id) survey (fun _ last => last.ledger.Linked tree)
      (fun _ => False) := by
  -- All other records have their links already.
  have rest {ledger : Ledger} (same : ∀ other, other ≠ id → ledger.record other = survey.ledger.record other)
      (self : (ledger.record id).IsLinked tree) : ledger.Linked tree := by
    intro other
    -- For the record itself the link is given, for others it was there.
    by_cases here : other = id
    · exact here ▸ self
    · rw [same other here]
      exact due.others other here
  simp only [noteReference, ends_bind, ends_record]
  split
  · rename_i lacking
    -- The record is there, for no schema is noted for a number past the end.
    have present : id.index < survey.ledger.size := by
      by_contra absent
      rw [Ledger.record_of_size_le (Nat.not_lt.mp absent)] at lacking
      cases lacking.1
    -- The link is the reference of the schema, if this has one.
    cases direct : (tree.schema schema).reference? with
    | some found =>
      obtain ⟨text, target⟩ := found
      rw [ends_update]
      refine rest (fun other apart => Ledger.record_update_of_ne apart) (.inl ?_)
      rw [Ledger.record_update_self present]
      show some target = (survey.ledger.record id).schema.bind tree.target?
      rw [lacking.1, Option.bind_some, SchemaTree.target?, direct]
      rfl
    -- There is no reference, so none has to be linked.
    | none =>
      refine rest (fun _ _ => rfl) (.inl ?_)
      rw [lacking.1, lacking.2, Option.bind_some, SchemaTree.target?, direct]
      rfl
  · rename_i standing
    -- The record was made for another schema or is linked already.
    exact rest (fun _ _ => rfl) (due.self.resolve_right standing)

section Parts

variable {visit : SchemaId → RecordId → Surveying Unit}

/-- A visit of a record that is there already. -/
theorem SettlesLink.links (settles : SettlesLink tree visit) : Links tree (visit schema id) :=
  fun survey linked => settles schema id survey linked.due

/-- A record that is looked up, or made for a schema and then visited for it. -/
theorem SettlesLink.create (settles : SettlesLink tree visit) {choice : Ledger → RecordId × Ledger}
    (chooses : ∀ ledger : Ledger, ledger.Linked tree →
      (choice ledger).2.Due tree schema (choice ledger).1) :
    Links tree (do
      let inner ← onLedger choice
      visit schema inner) := by
  intro survey linked
  simp only [ends_bind, ends_onLedger]
  exact settles schema _ _ (chooses survey.ledger linked)

/-- Each branch is visited for the schema that its record was made for. -/
theorem links_addBranches (settles : SettlesLink tree visit) {branches : List SchemaId} :
    Links tree (addBranches visit id branches) := by
  refine Links.forM fun branch _ survey linked => ?_
  simp only [ends_bind, ends_get]
  split
  · exact linked
  · simp only [ends_bind, ends_onLedger, ends_update]
    exact (settles branch _ _ (linked.create none)).imp (fun _ _ linked => linked.update rfl)
      fun _ _ => trivial

/-- A schema for additional properties is merged into the record that stands for them, which may have
been made for it. -/
theorem links_mergeAdditional (settles : SettlesLink tree visit) :
    Links tree (mergeAdditional tree visit schema id) := by
  intro survey linked
  simp only [mergeAdditional, ends_bind, ends_record]
  split
  · exact linked
  · rw [ends_update]
    exact linked.update rfl
  · exact linked
  · rw [ends_update]
    exact linked.update rfl
  · -- The record that stands there is visited once more.
    exact settles.links survey linked
  · simp only [ends_bind, ends_onLedger, ends_update]
    -- A new record is due for the schema that is visited now.
    exact settles schema _ _ ((linked.create none).update rfl)

/-- A keyword leaves all records with their links. -/
theorem links_mergeClause (settles : SettlesLink tree visit) {isBusy : SchemaId → Bool} {clause : Clause} :
    Links tree (mergeClause tree visit isBusy id clause) := by
  unfold mergeClause
  split
  · -- A reference is followed or not, but the record is not linked by it.
    split
    · exact fun _ linked => linked
    · exact settles.links
  · -- Branches of a combination are visited for the same record.
    exact Links.forM fun branch _ => settles.links
  · -- One of the branches only admits null, or nothing is merged.
    split
    · exact settles.links.bind fun _ => links_nullable
    · exact fun _ linked => linked
  · split
    · exact settles.links.bind fun _ => links_nullable
    · exact links_addBranches settles
  · -- A negation is visited for a schema it was not made for, and nothing is due.
    exact settles.create fun _ linked => linked.negation.due
  · -- A property is made for the schema that it is visited for, or it was there.
    refine Links.forM fun entry _ => settles.create fun ledger linked => ?_
    unfold Ledger.property
    split
    · exact linked.due
    · exact (linked.create _).update rfl
  · refine Links.forM fun entry _ => (links_of_ledger_eq ledger_checkPattern).bind fun _ =>
      -- Values of patterns are like properties, behind a check.
      settles.create fun ledger linked => ?_
    unfold Ledger.patternProperty
    split
    · exact linked.due
    · exact (linked.create _).update rfl
  · -- The rest leads to a place as well, or it is absorbed.
    exact links_mergeAdditional settles
  · refine settles.create fun ledger linked => ?_
    unfold Ledger.items
    split
    · exact linked.due
    · exact (linked.create _).update rfl
  · split
    · exact (links_of_ledger_eq ledger_checkPattern).bind fun _ => links_absorb
    · exact links_absorb

end Parts

/-- A visit settles the link that is due, and leaves all records with theirs. -/
theorem settles_visit (opened : List SchemaId) : SettlesLink tree (visit tree opened) := by
  intro schema id
  -- The list of open schemas grows shorter with every schema that is entered.
  induction opened, schema, id using visit.induct with
  | case1 opened schema id ih =>
    intro survey due
    rw [visit, ends_bind]
    -- The link is settled first; whatever follows keeps it.
    refine (linked_noteReference due).imp (fun _ noted linked => ?_) fun _ _ => trivial
    split
    · exact links_nullable noted linked
    · split
      · rename_i isOpen
        have titles : Links tree (noteTitles (tree.schema schema) id) := links_update fun _ => rfl
        exact (titles.bind fun _ => (Links.forM fun clause _ => links_mergeClause (ih isOpen)).bind
          fun _ => links_of_ledger_eq ledger_checkExamples) noted linked
      · exact linked

/-- A record that is begun for a schema leaves all records with their links: each of them links to the
target of the reference that stands directly in the schema that it was made for. -/
theorem linked_begin {root : SchemaId} {survey : Survey} (linked : survey.ledger.Linked tree) :
    Ends (begin tree root) survey (fun _ last => last.ledger.Linked tree) (fun _ => True) := by
  -- The record is made for the schema that it is then visited for.
  simp only [begin, merge, ends_bind, ends_onLedger, ends_pure]
  exact settles_visit tree.ids root _ _ (linked.create none)

end Survey

/-- A schema with a property that refers to it in a branch only. -/
def branchReferenceTree : SchemaTree where
  schemas := #[
    ⟨"a", .object .null [⟨"a", .properties [("child", ⟨1⟩)]⟩]⟩,
    ⟨"b", .object .null [⟨"b", .allOf [⟨2⟩]⟩]⟩,
    ⟨"c", .object .null [⟨"c", .reference "a" ⟨0⟩⟩]⟩]

/-- A property that refers in a branch to a schema which is being visited neither takes in what that schema
states nor links to it. -/
theorem Survey.target_eq_none_branchReference :
    ∃ id child last, begin branchReferenceTree ⟨0⟩ {} = .ok id last ∧
      (last.ledger.record id).properties = [child] ∧
        (last.ledger.record child).properties = [] ∧ (last.ledger.record child).target = none := by
  -- The survey is computed.
  have unlinked : (match begin branchReferenceTree ⟨0⟩ {} with
      | .ok id last => decide ((last.ledger.record id).properties = [⟨1⟩] ∧
          (last.ledger.record ⟨1⟩).properties = [] ∧ (last.ledger.record ⟨1⟩).target = none)
      | .error _ _ => false) = true := by decide +kernel
  -- The second alternative was excluded by the computation.
  cases ran : begin branchReferenceTree ⟨0⟩ {} with
  | ok id last =>
    rw [ran] at unlinked
    exact ⟨id, ⟨1⟩, last, rfl, of_decide_eq_true unlinked⟩
  | error fault last =>
    rw [ran] at unlinked
    cases unlinked

end SchemaClasses
