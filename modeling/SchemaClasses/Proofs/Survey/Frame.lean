import SchemaClasses.Proofs.Record
import SchemaClasses.Proofs.Survey.Steps

/-! What a survey leaves alone: the records below the one that it fills, and what identifies the
others. -/

namespace SchemaClasses

namespace Record

/-- Two records that were made for the same thing. -/
structure SameOrigin (record other : Record) : Prop where
  schema : other.schema = record.schema
  name : other.name = record.name
  checks : other.checks = record.checks
  negationOf : other.negationOf = record.negationOf

theorem SameOrigin.refl (record : Record) : record.SameOrigin record := ⟨rfl, rfl, rfl, rfl⟩

theorem SameOrigin.trans {a b c : Record} (first : a.SameOrigin b) (second : b.SameOrigin c) :
    a.SameOrigin c :=
  ⟨second.schema.trans first.schema, second.name.trans first.name,
    second.checks.trans first.checks, second.negationOf.trans first.negationOf⟩

variable {tree : SchemaTree} {record merged : Record}

/-- What is stated in a record does not change what it was made for. -/
theorem Restated.sameOrigin (restated : record.Restated tree merged) : record.SameOrigin merged := by
  cases restated with
  | keyword absorbed =>
    rw [← restate_absorb absorbed]
    exact ⟨rfl, rfl, rfl, rfl⟩
  | _ => exact ⟨rfl, rfl, rfl, rfl⟩

/-- What is stated in a record puts no other record into it. -/
theorem Restated.children_subset (restated : record.Restated tree merged) :
    merged.children ⊆ record.children := by
  cases restated with
  -- A keyword leaves all links alone.
  | keyword absorbed =>
    rw [← restate_absorb absorbed]
    exact List.Subset.refl _
  | forbidden =>
    -- What took the place of further properties at most drops the record that was there.
    intro child member
    simp only [mem_children] at member ⊢
    grind
  | allowed _ =>
    intro child member
    simp only [mem_children] at member ⊢
    grind
  | _ => exact List.Subset.refl _

/-- What is stated in a record makes it lead to no other record. -/
theorem Restated.links_subset (restated : record.Restated tree merged) :
    merged.links ⊆ record.links := by
  intro link member
  rw [mem_links] at member ⊢
  rw [restated.sameOrigin.negationOf] at member
  exact member.imp (fun inside => restated.children_subset inside) id

/-- A record with one more branch leads to that branch as well. -/
theorem mem_links_branch {branch link : RecordId}
    (member : link ∈ { record with oneOf := record.oneOf ++ [branch] }.links) :
    link = branch ∨ link ∈ record.links := by
  simp only [mem_links, mem_children] at member ⊢
  grind

/-- A record with a negation leads to that negation as well. -/
theorem mem_links_negation {negation link : RecordId}
    (member : link ∈ { record with negation := some negation }.links) :
    link = negation ∨ link ∈ record.links := by
  simp only [mem_links, mem_children] at member ⊢
  grind

end Record

/-- A record put into a place lies inside the record around it, beside those that did before. -/
theorem Slot.mem_children_fill {slot : Slot} {child link : RecordId} {record : Record}
    (member : link ∈ (slot.fill child record).children) : link = child ∨ link ∈ record.children := by
  rw [Record.mem_children] at member ⊢
  cases slot <;> simp only [fill] at member <;> grind

/-- A record put into a place does not change what the record around it was made for. -/
theorem Slot.sameOrigin_fill {slot : Slot} {child : RecordId} {record : Record} :
    record.SameOrigin (slot.fill child record) := by
  cases slot <;> exact ⟨rfl, rfl, rfl, rfl⟩

/-- A record with a filled place leads to what fills it as well. -/
theorem Slot.mem_links_fill {slot : Slot} {child link : RecordId} {record : Record}
    (member : link ∈ (slot.fill child record).links) : link = child ∨ link ∈ record.links := by
  rw [Record.mem_links] at member ⊢
  rw [sameOrigin_fill.negationOf] at member
  rcases member with inside | origin
  · exact (mem_children_fill inside).imp id .inl
  · exact .inr (.inr origin)

/-- A later ledger in which records below a bound are what they were, and every record stands for
what it stood for. -/
structure Ledger.Undisturbed (bound : Nat) (before after : Ledger) : Prop where
  size_le : before.size ≤ after.size
  record_eq : ∀ id : RecordId, id.index < bound → after.record id = before.record id
  sameOrigin : ∀ id : RecordId, id.index < before.size →
    (before.record id).SameOrigin (after.record id)

namespace Ledger.Undisturbed

variable {bound : Nat}

theorem refl (ledger : Ledger) : Undisturbed bound ledger ledger :=
  ⟨Nat.le_refl _, fun _ _ => rfl, fun _ _ => .refl _⟩

theorem trans {a b c : Ledger} (first : Undisturbed bound a b) (second : Undisturbed bound b c) :
    Undisturbed bound a c where
  size_le := Nat.le_trans first.size_le second.size_le
  record_eq id below := (second.record_eq id below).trans (first.record_eq id below)
  sameOrigin id present :=
    (first.sameOrigin id present).trans
      (second.sameOrigin id (Nat.lt_of_lt_of_le present first.size_le))

/-- A change of a record above the bound disturbs none below it. -/
theorem update {ledger : Ledger} {id : RecordId} {change : Record → Record}
    (above : bound ≤ id.index)
    (kept : (ledger.record id).SameOrigin (change (ledger.record id))) :
    Undisturbed bound ledger (ledger.update id change) where
  -- A record below the bound is not the one that changes.
  size_le := by simp
  record_eq other below := by
    have apart : other ≠ id := by
      rintro rfl
      omega
    rw [record_update_of_ne apart]
  sameOrigin other present := by
    -- The one that changes keeps its origin, any other is the same.
    rw [record_update]
    split
    · rename_i same
      obtain ⟨rfl, -⟩ := same
      exact kept
    · exact .refl _

/-- A record added at the end disturbs none below it. -/
theorem push {ledger grown : Ledger} {added : Record} (reached : bound ≤ ledger.size)
    (size : grown.size = ledger.size + 1)
    (records : ∀ id, grown.record id = if id = ⟨ledger.size⟩ then added else ledger.record id) :
    Undisturbed bound ledger grown := by
  refine ⟨by omega, fun other below => ?_, fun other present => ?_⟩
  · rw [records, if_neg (RecordId.ne_next (by omega))]
  · rw [records, if_neg (RecordId.ne_next present)]
    exact .refl _

end Ledger.Undisturbed

namespace Survey

/-- All that a survey may act on lies above a bound, and no link leads from there below it. -/
structure Stage.Sealed (bound : Nat) (stage : Stage) : Prop where
  reached : bound ≤ stage.ledger.size
  known : ∀ id ∈ stage.known, bound ≤ id.index
  pending : ∀ entry ∈ stage.pending, bound ≤ entry.2.index
  links : ∀ id : RecordId, bound ≤ id.index →
    ∀ link ∈ (stage.ledger.record id).links, bound ≤ link.index

namespace Stage.Sealed

variable {bound : Nat} {stage : Stage} {ledger : Ledger}

/-- Another record above the bound may become known. -/
theorem learn (sealed' : stage.Sealed bound) {id : RecordId} (above : bound ≤ id.index) :
    Stage.Sealed bound { stage with known := insert id stage.known } where
  reached := sealed'.reached
  known other member := by
    rcases Set.mem_insert_iff.mp member with rfl | member
    · exact above
    · exact sealed'.known other member
  pending := sealed'.pending
  links := sealed'.links

/-- A known record may change as long as its new links stay above the bound. -/
theorem update (sealed' : stage.Sealed bound) {id : RecordId} {change : Record → Record}
    (linked : ∀ link ∈ (change (stage.ledger.record id)).links,
      bound ≤ link.index ∨ link ∈ (stage.ledger.record id).links) :
    Stage.Sealed bound { stage with ledger := stage.ledger.update id change } where
  reached := by simpa using sealed'.reached
  known := sealed'.known
  pending := sealed'.pending
  links other above link member := by
    -- A link of the changed record is new or was there; all others were there.
    rw [Ledger.record_update] at member
    split at member
    · rename_i same
      obtain ⟨rfl, -⟩ := same
      exact (linked link member).elim id (sealed'.links other above link)
    · exact sealed'.links other above link member

/-- A record with links above the bound may be added. -/
theorem push (sealed' : stage.Sealed bound) {added : Record}
    (linked : ∀ link ∈ added.links, bound ≤ link.index)
    (size : ledger.size = stage.ledger.size + 1)
    (records : ∀ id, ledger.record id =
      if id = ⟨stage.ledger.size⟩ then added else stage.ledger.record id) :
    Stage.Sealed bound
      { stage with known := insert ⟨stage.ledger.size⟩ stage.known, ledger := ledger } where
  reached := by
    have := sealed'.reached
    simp only [size]
    omega
  known := (sealed'.learn sealed'.reached).known
  pending := sealed'.pending
  links other above link member := by
    -- Links of the new record are above the bound by assumption.
    simp only [records] at member
    split at member
    · exact linked link member
    · exact sealed'.links other above link member

end Stage.Sealed

variable {tree : SchemaTree} {bound : Nat} {stage next : Stage}

/-- A step from a sealed stage leads to a sealed stage and disturbs nothing below the bound. -/
theorem Step.undisturbed (taken : Step tree stage next) (sealed' : stage.Sealed bound) :
    next.Sealed bound ∧ stage.ledger.Undisturbed bound next.ledger := by
  have reached := sealed'.reached
  -- To make a record is allowed in a sealed stage, as it joins at the end.
  have created (schema : SchemaId) (name : Option String) :
      Stage.Sealed bound
        { stage with
          known := insert ⟨stage.ledger.size⟩ stage.known
          ledger := (stage.ledger.create (some schema) name).2 } :=
    sealed'.push (by simp [Ledger.fresh, Record.links, Record.children]) Ledger.size_create
      fun _ => Ledger.record_create
  have undisturbed (schema : SchemaId) (name : Option String) :
      stage.ledger.Undisturbed bound (stage.ledger.create (some schema) name).2 :=
    .push reached Ledger.size_create fun _ => Ledger.record_create
  cases taken with
  -- What is learned lies behind a known record.
  | learn acts linked =>
    exact ⟨sealed'.learn (sealed'.links _ (sealed'.known _ acts) _ linked), .refl _⟩
  -- Restating adds no link.
  | restate acts restated =>
    refine ⟨sealed'.update fun link member => .inr (restated.links_subset member), ?_⟩
    exact .update (sealed'.known _ acts) restated.sameOrigin
  | @attach id acts schema slot free =>
    -- The new link leads to the new record, which lies above the bound like all that are known.
    refine ⟨(created schema slot.name?).update fun link member => ?_,
      (undisturbed schema slot.name?).trans (.update (sealed'.known _ acts) Slot.sameOrigin_fill)⟩
    rcases Slot.mem_links_fill member with rfl | held
    · exact .inl reached
    · exact .inr held
  | @negate id acts positive unset =>
    -- The negation leads back to its record, which is known and so lies above the bound.
    have linked : ∀ link ∈ (stage.ledger.negative id).links, bound ≤ link.index := by
      simpa [Ledger.negative, Record.links, Record.children] using sealed'.known _ acts
    have pushed := sealed'.push linked Ledger.size_push fun _ => Ledger.record_push
    rw [Ledger.negation_of_unset positive unset]
    refine ⟨pushed.update fun link member => ?_, ?_⟩
    · rcases Record.mem_links_negation member with rfl | held
      · exact .inl reached
      · exact .inr held
    · exact (Ledger.Undisturbed.push reached Ledger.size_push fun _ => Ledger.record_push).trans
        (.update (sealed'.known _ acts) ⟨rfl, rfl, rfl, rfl⟩)
  -- A branch that is opened is a new record.
  | openBranch acts schema =>
    have known := created schema none
    refine ⟨⟨known.reached, known.known, fun entry member => ?_, known.links⟩,
      undisturbed schema none⟩
    rcases List.mem_cons.mp member with rfl | member
    · exact reached
    · exact sealed'.pending entry member
  | @linkBranch id branch rest acts latest =>
    -- The branch was opened by this survey, above the bound.
    have open' : bound ≤ branch.index := sealed'.pending _ (latest ▸ List.mem_cons_self)
    have updated : Stage.Sealed bound
        { stage with
          ledger := stage.ledger.update id fun held =>
            { held with oneOf := held.oneOf ++ [branch] } } :=
      sealed'.update fun link member => by
        -- The link leads to the branch or was there.
        rcases Record.mem_links_branch member with rfl | held
        · exact .inl open'
        · exact .inr held
    exact ⟨⟨updated.reached, updated.known,
      fun entry member => sealed'.pending entry (latest ▸ List.mem_cons_of_mem _ member),
      updated.links⟩, .update (sealed'.known _ acts) ⟨rfl, rfl, rfl, rfl⟩⟩

/-- Any number of steps from a sealed stage disturbs nothing below the bound. -/
theorem Steps.undisturbed (taken : Steps tree stage next) (sealed' : stage.Sealed bound) :
    next.Sealed bound ∧ stage.ledger.Undisturbed bound next.ledger := by
  induction taken with
  | refl => exact ⟨sealed', .refl _⟩
  | tail _ last ih =>
    obtain ⟨middle, undisturbed⟩ := ih
    obtain ⟨final, undisturbed'⟩ := last.undisturbed middle
    exact ⟨final, undisturbed.trans undisturbed'⟩

end Survey

end SchemaClasses
