import SchemaClasses.Proofs.Resolution.Checks
import SchemaClasses.Proofs.Resolution.Walks

/-! The scope of a class: the records below its own. The scopes of different classes share neither
records nor sets of checks. -/

namespace SchemaClasses

namespace Ledger

/-- A record and all records inside it, at any depth. -/
def scope (ledger : Ledger) (root : RecordId) : Set RecordId :=
  { id | Relation.ReflTransGen (fun parent child => child ∈ (ledger.record parent).children) root id }

variable {ledger : Ledger} {root other id parent child : RecordId}

theorem mem_scope_self : root ∈ ledger.scope root := Relation.ReflTransGen.refl

/-- What lies inside a record of a scope belongs to the scope. -/
theorem mem_scope_of_child (member : id ∈ ledger.scope root)
    (inside : child ∈ (ledger.record id).children) : child ∈ ledger.scope root :=
  Relation.ReflTransGen.tail member inside

/-- A property of a record belongs to its scope. -/
theorem mem_scope_of_property (inside : child ∈ (ledger.record root).properties) :
    child ∈ ledger.scope root :=
  mem_scope_of_child mem_scope_self (Record.mem_children.mpr (.inl inside))

/-- What lies inside a record spans a scope within that of the record. -/
theorem scope_subset (inside : child ∈ (ledger.record root).children) :
    ledger.scope child ⊆ ledger.scope root :=
  fun _ member => Relation.ReflTransGen.head inside member

namespace Sound

/-- A record lies before all others of its scope. -/
theorem le_of_mem_scope (sound : ledger.Sound) (member : id ∈ ledger.scope root) :
    root.index ≤ id.index := by
  induction member with
  | refl => exact Nat.le_refl _
  | tail _ inside ih => exact Nat.le_trans ih (Nat.le_of_lt (sound.forest.inside _ _ inside).1)

/-- The scope of a record that is there is closed. -/
theorem closed_scope (sound : ledger.Sound) (present : root.index < ledger.size) :
    ledger.Closed (ledger.scope root) := by
  have inside (id : RecordId) (member : id ∈ ledger.scope root) : id.index < ledger.size := by
    rcases Relation.ReflTransGen.cases_tail member with rfl | ⟨parent, -, child⟩
    · exact present
    · exact (sound.forest.inside _ _ child).2
  exact ⟨inside, fun id member => sound.schema id (inside id member),
    fun id member child inside => mem_scope_of_child member inside⟩

/-- The scope of a record that lies inside another one is closed. -/
theorem closed_inside (sound : ledger.Sound) (inside : child ∈ (ledger.record parent).children) :
    ledger.Closed (ledger.scope child) :=
  sound.closed_scope (sound.forest.inside parent child inside).2

/-- No record belongs to the scopes of two roots. -/
theorem scope_disjoint (sound : ledger.Sound) (isRoot : ledger.IsRoot root)
    (isRoot' : ledger.IsRoot other) (member : id ∈ ledger.scope root)
    (member' : id ∈ ledger.scope other) : root = other := by
  -- Both ways down to the record end with the same step, as it lies inside one record only.
  induction member with
  | refl =>
    rcases Relation.ReflTransGen.cases_tail member' with same | ⟨parent, -, child⟩
    · -- A root lies inside no other record.
      exact same
    · exact absurd child (isRoot parent)
  | tail above inside ih =>
    rcases Relation.ReflTransGen.cases_tail member' with rfl | ⟨parent, above', child⟩
    · exact absurd inside (isRoot' _)
    · rw [sound.forest.single _ _ _ child inside] at above'
      exact ih above'

/-- A negation lies inside the record that it negates. -/
theorem child_of_negationOf (sound : ledger.Sound)
    (negated : (ledger.record id).negationOf = some parent) :
    id ∈ (ledger.record parent).children :=
  Record.mem_children.mpr (.inr (.inr (.inr (.inr (.inr ((sound.owned.mirror parent id).mpr negated))))))

/-- The owner of the checks of a record belongs to the same scope. -/
theorem positive_mem_scope (sound : ledger.Sound) (isRoot : ledger.IsRoot root)
    (member : id ∈ ledger.scope root) : ledger.positive id ∈ ledger.scope root := by
  unfold positive
  cases negated : (ledger.record id).negationOf with
  | none => exact member
  | some parent =>
    have inside := sound.child_of_negationOf negated
    -- The parent of a negation is the record that it negates.
    rcases Relation.ReflTransGen.cases_tail member with rfl | ⟨parent', above, child⟩
    · exact absurd inside (isRoot parent)
    · rw [sound.forest.single _ _ _ child inside] at above
      exact above

/-- The scopes of different roots share no set of checks. -/
theorem apart_scope (sound : ledger.Sound) (isRoot : ledger.IsRoot root)
    (isRoot' : ledger.IsRoot other) (present : root.index < ledger.size)
    (present' : other.index < ledger.size) (different : root ≠ other) :
    ledger.Apart (ledger.scope root) (ledger.scope other) := by
  -- The one owner of the shared set would belong to both scopes.
  intro a member b member' same
  have owner := sound.owned.apart a b ((sound.closed_scope present).present a member)
    ((sound.closed_scope present').present b member') same
  have mine := sound.positive_mem_scope isRoot member
  rw [owner] at mine
  exact different
    (sound.scope_disjoint isRoot isRoot' mine (sound.positive_mem_scope isRoot' member'))

/-- The analysis of a record leads to no negation. -/
theorem negationOf_eq_none (sound : ledger.Sound) (leads : (ledger.record parent).LeadsTo id) :
    (ledger.record id).negationOf = none := by
  cases negated : (ledger.record id).negationOf with
  | none => rfl
  | some other =>
    have held := (sound.owned.mirror other id).mpr negated
    have inside := sound.child_of_negationOf negated
    rw [sound.forest.single _ _ _ inside leads.mem_children] at held
    -- It would lie inside its record twice, in its own place and as the negation.
    have nodup := sound.forest.nodup parent
    simp only [Record.children, held, List.nodup_append, Option.toList_some] at nodup
    refine absurd rfl (nodup.2.2 id ?_ id (by simp))
    -- A record that is led to stands among the members or is the items.
    rcases leads with (property | pattern | additional) | items
    · simp [property]
    · simp only [List.mem_append]
      exact .inl (.inl (.inl (.inr pattern)))
    · simp [additional, AdditionalProperties.record?]
    · simp [items]

/-- A property is no negation. -/
theorem positive_property (sound : ledger.Sound) (member : id ∈ (ledger.record parent).properties) :
    ledger.positive id = id := by
  unfold positive
  rw [sound.negationOf_eq_none (.inl (.inl member))]
  rfl

/-- The records of a survey are in order. -/
theorem ordered (sound : ledger.Sound) (scope : Set RecordId) : ledger.Ordered scope where
  behind id _ child inside := (sound.forest.inside id child inside).1
  positive _ _ _ leads := sound.negationOf_eq_none leads
  negative id _ negation held := by
    rw [(sound.owned.mirror id negation).mp held]
    rfl

/-- Different properties own different sets of checks. -/
theorem checks_ne (sound : ledger.Sound) {parent' : RecordId}
    (member : id ∈ (ledger.record parent).properties)
    (member' : other ∈ (ledger.record parent').properties) (different : id ≠ other) :
    (ledger.record id).checks ≠ (ledger.record other).checks := by
  -- One set would have one owner, and each property owns its own.
  intro same
  have present := (sound.forest.inside _ _ (Record.mem_children.mpr (.inl member))).2
  have present' := (sound.forest.inside _ _ (Record.mem_children.mpr (.inl member'))).2
  have owner := sound.owned.apart id other present present' same
  rw [sound.positive_property member, sound.positive_property member'] at owner
  exact different owner

/-- A property of a root shares its set of checks with no record inside another one, unless that is its
negation. -/
theorem apart_below (sound : ledger.Sound) (isRoot : ledger.IsRoot root)
    (member : id ∈ (ledger.record root).properties) (inside : child ∈ (ledger.record parent).children)
    (different : id ≠ child) (positive : (ledger.record child).negationOf ≠ some id) :
    ledger.Apart {id} (ledger.scope child) := by
  rintro property rfl other below same
  -- The owner of a shared set is the property itself, as it is no negation.
  have owned := Record.mem_children.mpr (.inl member)
  have owner := sound.owned.apart property other (sound.forest.inside _ _ owned).2
    ((sound.closed_inside inside).present other below) same
  rw [sound.positive_property member] at owner
  -- The property owns the other set, so it lies inside the other record.
  have within : property ∈ ledger.scope child := by
    unfold Ledger.positive at owner
    cases negated : (ledger.record other).negationOf with
    | none =>
      rw [negated] at owner
      exact owner ▸ below
    | some holder =>
      rw [negated] at owner
      rcases Relation.ReflTransGen.cases_tail below with rfl | ⟨holder', above, held⟩
      · exact absurd (negated.trans (congrArg some owner.symm)) positive
      · rw [sound.forest.single _ _ _ held (sound.child_of_negationOf negated)] at above
        exact owner ▸ above
  rcases Relation.ReflTransGen.cases_tail within with same' | ⟨holder, above, held⟩
  · exact different same'
  · -- Then the root would lie inside it too.
    rw [sound.forest.single _ _ _ held owned] at above
    rcases Relation.ReflTransGen.cases_tail above with rfl | ⟨holder', -, held'⟩
    · exact isRoot _ inside
    · exact isRoot _ held'

/-- A property of a root shares its set of checks with no record inside another child of the root. -/
theorem apart_child (sound : ledger.Sound) (isRoot : ledger.IsRoot root)
    (member : id ∈ (ledger.record root).properties) (inside : child ∈ (ledger.record root).children)
    (different : id ≠ child) : ledger.Apart {id} (ledger.scope child) := by
  refine sound.apart_below isRoot member inside different fun negated => ?_
  have same := sound.forest.single _ _ _ inside (sound.child_of_negationOf negated)
  exact isRoot root (Record.mem_children.mpr (.inl (same ▸ member)))

/-- What lies inside a record does not lie inside another child of it. -/
theorem not_mem_scope_of_child (sound : ledger.Sound) (inside : child ∈ (ledger.record parent).children)
    (inside' : other ∈ (ledger.record parent).children) (different : other ≠ child) :
    other ∉ ledger.scope child := by
  intro member
  rcases Relation.ReflTransGen.cases_tail member with same | ⟨holder, above, held⟩
  · exact different same
  · -- Then the record would lie inside its own child.
    rw [sound.forest.single _ _ _ held inside'] at above
    exact Nat.lt_irrefl _ (Nat.lt_of_lt_of_le (sound.forest.inside _ _ inside).1
      (sound.le_of_mem_scope above))

/-- No property has two places. -/
theorem properties_nodup (sound : ledger.Sound) : (ledger.record parent).properties.Nodup := by
  have nodup := sound.forest.nodup parent
  simp only [Record.children, List.nodup_append] at nodup
  exact nodup.1.1.1.1.1

end Sound

end Ledger

/-- The scope of a declared class is closed. -/
theorem Model.Declared.closed_scope {model : Model} {owner : DeclarationId} (declared : model.Declared)
    (inside : owner.index < model.declarations.size) :
    model.ledger.Closed (model.ledger.scope (model.declaration owner).record) :=
  declared.sound.closed_scope (declared.root owner inside).1

end SchemaClasses
