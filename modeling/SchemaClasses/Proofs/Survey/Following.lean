import SchemaClasses.Proofs.Absorption
import SchemaClasses.Proofs.Survey.Outline

/-! A visit that succeeds makes of a record what the statements on its trail make of it, one after
the other; nothing that is surveyed inside the record gets in between. -/

namespace SchemaClasses

namespace Survey

variable {tree : SchemaTree} {id inner : RecordId} {survey : Survey}

/-- Whether a part of a survey makes of a record what a function makes of its outline. -/
def Follows (id : RecordId) (part : Surveying Unit) (change : Outline → Except Fault Outline) :
    Prop :=
  ∀ survey : Survey, survey.ledger.Alone id →
    Ends part survey
      (fun _ last => last.ledger.Alone id ∧
        change (survey.ledger.outline id) = .ok (last.ledger.outline id))
      (fun _ => True)

/-- What is surveyed behind a record does not reach its outline. -/
theorem Works.apart {part : Surveying Unit} (works : Works tree inner part)
    (alone : survey.ledger.Alone id) (behind : id.index < inner.index) :
    Ends part survey
      (fun _ last => last.ledger.Alone id ∧ last.ledger.outline id = survey.ledger.outline id)
      (fun _ => True) := by
  -- The part only touches records behind the one at hand, and these hold nothing in front.
  have sealed' : Stage.Sealed (id.index + 1) ⟨{inner}, [], survey.ledger⟩ :=
    ⟨alone.present, fun _ member => member ▸ behind, by simp, alone.beyond⟩
  refine (works survey ⟨{inner}, [], survey.ledger⟩ rfl rfl).imp (fun _ last done => ?_)
    fun _ _ => trivial
  -- What is in front of the part is sealed off and ends as it was.
  obtain ⟨known, -, steps⟩ := done
  obtain ⟨final, kept⟩ := steps.undisturbed sealed'
  exact alone.undisturbed kept final

/-- Nothing to do follows nothing. -/
theorem follows_pure : Follows id (pure ()) .ok := fun _ alone => ⟨alone, rfl⟩

/-- One part after the other. -/
theorem Follows.bind {first second : Surveying Unit}
    {change change' : Outline → Except Fault Outline} (follows : Follows id first change)
    (follows' : Follows id second change') :
    Follows id (do first; second) (fun outline => change outline >>= change') := by
  intro survey alone
  rw [ends_bind]
  refine (follows survey alone).imp (fun _ middle ⟨alone', changed⟩ => ?_) fun _ _ => trivial
  refine (follows' middle alone').imp (fun _ last ⟨alone'', changed'⟩ => ?_) fun _ _ => trivial
  exact ⟨alone'', by simp only [changed]; exact changed'⟩

/-- The same part follows what is the same change. -/
theorem Follows.congr {part : Surveying Unit} {change change' : Outline → Except Fault Outline}
    (follows : Follows id part change) (same : ∀ outline, change outline = change' outline) :
    Follows id part change' := by
  intro survey alone
  rw [← same]
  exact follows survey alone

/-- A change for each item of a list. -/
theorem Follows.foldl {α : Type} {items : List α} {round : α → Surveying Unit}
    {change : Outline → α → Outline}
    (follows : ∀ item ∈ items, Follows id (round item) fun outline => .ok (change outline item)) :
    Follows id (items.forM round) fun outline => .ok (items.foldl change outline) := by
  induction items with
  | nil => exact follows_pure
  | cons item rest ih =>
    -- The first round changes the outline, and the others go on from there.
    have first := follows item List.mem_cons_self
    have later := ih fun other member => follows other (List.mem_cons_of_mem _ member)
    exact first.bind later

/-- A part of the trail for each item of a list. -/
theorem Follows.flatMap {α : Type} {items : List α} {round : α → Surveying Unit}
    {trail : α → List Statement}
    (follows : ∀ item ∈ items, Follows id (round item) ((trail item).foldlM (Outline.take tree) ·)) :
    Follows id (items.forM round) ((items.flatMap trail).foldlM (Outline.take tree) ·) := by
  induction items with
  | nil => exact follows_pure
  | cons item rest ih =>
    have first := follows item List.mem_cons_self
    have later := ih fun other member => follows other (List.mem_cons_of_mem _ member)
    -- Trails one after the other are run one after the other.
    refine (first.bind later).congr fun outline => ?_
    rw [List.flatMap_cons, List.foldlM_append]

/-- A last statement that leaves every outline alone may be left out. -/
theorem Follows.idle {part : Surveying Unit} {statements : List Statement} {statement : Statement}
    (follows : Follows id part (statements.foldlM (Outline.take tree) ·))
    (nothing : ∀ outline : Outline, outline.take tree statement = .ok outline) :
    Follows id part ((statements ++ [statement]).foldlM (Outline.take tree) ·) := by
  refine follows.congr fun outline => ?_
  rw [List.foldlM_append]
  -- After a conflict nothing is taken, in either run.
  cases statements.foldlM (Outline.take tree) outline with
  | error fault => rfl
  | ok merged =>
    simp only [List.foldlM_cons, List.foldlM_nil, bind_pure]
    exact (nothing merged).symm

/-- What leaves the outline alone keeps it. -/
theorem Follows.kept {part : Surveying Unit} (follows : Follows id part .ok)
    (alone : survey.ledger.Alone id) :
    Ends part survey
      (fun _ last => last.ledger.Alone id ∧ last.ledger.outline id = survey.ledger.outline id)
      (fun _ => True) :=
  (follows survey alone).imp (fun _ _ ⟨alone', same⟩ => ⟨alone', (Except.ok.inj same).symm⟩)
    fun _ _ => trivial

section Parts

variable {visit : SchemaId → RecordId → Surveying Unit}

end Parts

end Survey

end SchemaClasses
