import SchemaClasses.Proofs.Survey.Frame

/-! Surveyed records form a forest: every record lies inside at most one other, behind it, and owns
its set of checks unless it is the negation of the owner. -/

namespace SchemaClasses

namespace Record

variable {tree : SchemaTree} {record merged : Record}

/-- What is stated in a record at most drops a record inside it. -/
theorem Restated.children_sublist (restated : record.Restated tree merged) :
    merged.children.Sublist record.children := by
  -- Only the place of further properties may be emptied; what stands before and behind it stays.
  have dropped (additional : Option AdditionalProperties)
      (none : (additional.bind (·.record?)).toList = []) :
      { record with additional }.children.Sublist record.children := by
    simp only [children, none, List.append_nil, List.append_assoc]
    refine List.Sublist.append_left (List.Sublist.append_left ?_ _) _
    exact List.sublist_append_right _ _
  cases restated with
  | keyword absorbed =>
    rw [← restate_absorb absorbed]
    -- Statements alone lead to no record.
    exact List.Sublist.refl _
  | forbidden => exact dropped (some .forbidden) rfl
  | allowed _ => exact dropped (some .allowed) rfl
  -- What else is stated leaves all places as they are.
  | _ => exact List.Sublist.refl _

/-- What is stated in a record does not touch its negation. -/
theorem Restated.negation_eq (restated : record.Restated tree merged) :
    merged.negation = record.negation := by
  cases restated with
  | keyword absorbed =>
    rw [← restate_absorb absorbed]
    rfl
  | _ => rfl

end Record

/-- A record put into a free place joins those inside the record around it. -/
theorem Slot.children_fill {slot : Slot} {ledger : Ledger} {id child : RecordId}
    (free : slot.IsFree ledger id) :
    (slot.fill child (ledger.record id)).children.Perm (child :: (ledger.record id).children) := by
  -- The new record is counted once more than before, wherever the place stands.
  rw [List.perm_iff_count]
  intro other
  cases slot with
  | property name =>
    -- A property is appended to those that are there.
    simp only [fill, Record.children, List.count_append, List.count_cons, List.count_nil]
    omega
  | patternProperty pattern =>
    simp only [fill, Record.children, List.map_append, List.map_cons, List.map_nil,
      List.count_append, List.count_cons, List.count_nil]
    omega
  | additional =>
    -- The place is free, so it holds no schema.
    have none : ((ledger.record id).additional.bind (·.record?)).toList = [] := by
      cases held : (ledger.record id).additional with
      | none => rfl
      | some additional =>
        cases additional with
        | schema record => exact absurd held (free record)
        | _ => rfl
    have filled : ((some (AdditionalProperties.schema child)).bind (·.record?)).toList = [child] := rfl
    simp only [fill, Record.children, none, filled, List.count_append, List.count_cons,
      List.count_nil]
    omega
  | items =>
    -- A free place for items is empty.
    have none : (ledger.record id).items = none := free
    simp only [fill, Record.children, none, Option.toList_some, Option.toList_none,
      List.count_append, List.count_cons, List.count_nil]
    omega

/-- A branch joins those inside the record around it. -/
theorem Record.children_branch {record : Record} {branch : RecordId} :
    { record with oneOf := record.oneOf ++ [branch] }.children.Perm (branch :: record.children) := by
  rw [List.perm_iff_count]
  intro other
  simp only [children, List.count_append, List.count_cons, List.count_nil]
  omega

/-- A first negation joins those inside the record around it. -/
theorem Record.children_negation {record : Record} {negation : RecordId}
    (unset : record.negation = none) :
    { record with negation := some negation }.children.Perm (negation :: record.children) := by
  rw [List.perm_iff_count]
  intro other
  simp only [children, unset, Option.toList_some, Option.toList_none, List.count_append,
    List.count_cons, List.count_nil]
  omega

namespace Ledger

/-- Every record lies inside at most one other and behind it, at one place only. -/
structure Forest (ledger : Ledger) : Prop where
  inside : ∀ parent child : RecordId, child ∈ (ledger.record parent).children →
    parent.index < child.index ∧ child.index < ledger.size
  single : ∀ a b child : RecordId, child ∈ (ledger.record a).children →
    child ∈ (ledger.record b).children → a = b
  nodup : ∀ parent : RecordId, (ledger.record parent).children.Nodup

/-- Whether a record lies inside no other. -/
def IsRoot (ledger : Ledger) (id : RecordId) : Prop :=
  ∀ parent : RecordId, id ∉ (ledger.record parent).children

section Roots

variable {ledger : Ledger} {id root : RecordId}

/-- A root stays one as long as a change does not put it inside the record. -/
theorem IsRoot.update (isRoot : ledger.IsRoot root) {change : Record → Record}
    (apart : root ∉ (change (ledger.record id)).children) : (ledger.update id change).IsRoot root := by
  intro parent member
  rw [record_update] at member
  split at member
  · exact apart member
  · exact isRoot parent member

/-- A root stays one when a record without any inside it joins the ledger. -/
theorem IsRoot.push (isRoot : ledger.IsRoot root) {added : Record} {grown : Ledger}
    (barren : added.children = [])
    (records : ∀ id, grown.record id = if id = ⟨ledger.size⟩ then added else ledger.record id) :
    grown.IsRoot root := by
  intro parent member
  rw [records] at member
  split at member
  · simp [barren] at member
  · exact isRoot parent member

end Roots

namespace Forest

variable {ledger : Ledger} {id : RecordId}

theorem empty : Forest {} where
  inside _ _ member := absurd member List.not_mem_nil
  single _ _ _ member := absurd member List.not_mem_nil
  nodup _ := List.nodup_nil

/-- A record that drops at most some of those inside it. -/
theorem update (forest : ledger.Forest) {change : Record → Record}
    (dropped : (change (ledger.record id)).children.Sublist (ledger.record id).children) :
    (ledger.update id change).Forest := by
  have held (parent : RecordId) : ((ledger.update id change).record parent).children.Sublist
      (ledger.record parent).children :=
    @rel_update _ _ _ (fun before after => after.children.Sublist before.children) _
      (fun _ => List.Sublist.refl _) dropped
  -- Each property of a forest passes from a list to its sublists.
  exact {
    inside := fun parent child member => by
      rw [size_update]
      exact forest.inside parent child ((held parent).subset member)
    single := fun a b child member member' =>
      forest.single a b child ((held a).subset member) ((held b).subset member')
    nodup := fun parent => (forest.nodup parent).sublist (held parent) }

/-- A record without any inside it joins the ledger. -/
theorem push (forest : ledger.Forest) {added : Record} {grown : Ledger}
    (barren : added.children = []) (size : grown.size = ledger.size + 1)
    (records : ∀ id, grown.record id = if id = ⟨ledger.size⟩ then added else ledger.record id) :
    grown.Forest ∧ grown.IsRoot ⟨ledger.size⟩ := by
  -- The new record holds none, so what lies inside a record did so before.
  have held (parent child : RecordId) (member : child ∈ (grown.record parent).children) :
      child ∈ (ledger.record parent).children := by
    rw [records] at member
    split at member
    · simp [barren] at member
    · exact member
  refine ⟨⟨fun parent child member => ?_, fun a b child member member' => ?_, fun parent => ?_⟩,
    fun parent member => ?_⟩
  · -- What a record holds lies behind it and before the new one.
    have := forest.inside parent child (held parent child member)
    omega
  · exact forest.single a b child (held a child member) (held b child member')
  · rw [records]
    split
    · simp [barren]
    · exact forest.nodup parent
  · -- The new record lies in none, since all that are held were there before.
    have := (forest.inside parent _ (held parent _ member)).2
    exact Nat.lt_irrefl _ this

/-- A record that lay inside no other is put into one before it. -/
theorem adopt (forest : ledger.Forest) {child : RecordId} {change : Record → Record}
    (root : ledger.IsRoot child) (behind : id.index < child.index) (present : child.index < ledger.size)
    (joined : (change (ledger.record id)).children.Perm (child :: (ledger.record id).children)) :
    (ledger.update id change).Forest := by
  -- The only new place is that of the child in its record; it had none before.
  have held (parent other : RecordId)
      (member : other ∈ ((ledger.update id change).record parent).children) :
      other ∈ (ledger.record parent).children ∨ parent = id ∧ other = child := by
    rw [record_update] at member
    split at member
    · rename_i same
      rw [joined.mem_iff, List.mem_cons] at member
      rw [same.1]
      exact member.elim (fun here => .inr ⟨rfl, here⟩) .inl
    · exact .inl member
  refine ⟨fun parent other member => ?_, fun a b other member member' => ?_, fun parent => ?_⟩
  · rw [size_update]
    -- The child lies behind its record by assumption.
    rcases held parent other member with before | ⟨rfl, rfl⟩
    · exact forest.inside parent other before
    · exact ⟨behind, present⟩
  · -- Two holders of a record: they are old ones, or one of them is the record that adopts.
    rcases held a other member with before | ⟨rfl, rfl⟩
    · rcases held b other member' with before' | ⟨rfl, rfl⟩
      · exact forest.single a b other before before'
      · exact absurd before (root a)
    · rcases held b other member' with before' | ⟨rfl, -⟩
      · exact absurd before' (root b)
      · rfl
  · rw [record_update]
    split
    · -- The list of children is the old one with the child in front, up to order.
      rw [joined.nodup_iff, List.nodup_cons]
      exact ⟨root id, forest.nodup id⟩
    · exact forest.nodup parent

end Forest

/-- The record that owns the checks of a record: the one it negates, or itself. -/
def positive (ledger : Ledger) (id : RecordId) : RecordId := (ledger.record id).negationOf.getD id

/-- Every record owns its set of checks, unless it is the negation of the owner. -/
structure Owned (ledger : Ledger) : Prop where
  present : ∀ id : RecordId, id.index < ledger.size →
    (ledger.record id).checks.index < ledger.checkSets.size
  apart : ∀ a b : RecordId, a.index < ledger.size → b.index < ledger.size →
    (ledger.record a).checks = (ledger.record b).checks → ledger.positive a = ledger.positive b
  mirror : ∀ id negation : RecordId, (ledger.record id).negation = some negation ↔
    (ledger.record negation).negationOf = some id
  shares : ∀ negation id : RecordId, (ledger.record negation).negationOf = some id →
    id.index < ledger.size ∧ (ledger.record id).negationOf = none ∧
      (ledger.record negation).checks = (ledger.record id).checks

namespace Owned

variable {ledger : Ledger} {id : RecordId}

theorem empty : Owned {} where
  present _ inside := absurd inside (Nat.not_lt_zero _)
  apart _ _ inside := absurd inside (Nat.not_lt_zero _)
  mirror _ _ := ⟨(nomatch ·), (nomatch ·)⟩
  shares _ _ negated := nomatch negated

/-- A record that changes without a change of its checks and of its negation. -/
theorem update (owned : ledger.Owned) {change : Record → Record}
    (kept : (ledger.record id).SameOrigin (change (ledger.record id)))
    (negation : (change (ledger.record id)).negation = (ledger.record id).negation) :
    (ledger.update id change).Owned := by
  -- Who owns a set of checks depends on nothing but these three fields.
  have checks (other : RecordId) :
      ((ledger.update id change).record other).checks = (ledger.record other).checks :=
    field_update Record.checks kept.checks
  have negationOf (other : RecordId) :
      ((ledger.update id change).record other).negationOf = (ledger.record other).negationOf :=
    field_update Record.negationOf kept.negationOf
  have mirrored (other : RecordId) :
      ((ledger.update id change).record other).negation = (ledger.record other).negation :=
    field_update Record.negation negation
  refine ⟨fun other inside => ?_, fun a b inside inside' same => ?_, fun other mirror => ?_,
    fun mirror other negated => ?_⟩
  · -- The number of sets does not change.
    rw [checks, checkSets_update]
    exact owned.present other (by simpa using inside)
  · -- Positive records are the same as before, so the owner of a set is.
    rw [checks, checks] at same
    simp only [positive, negationOf]
    exact owned.apart a b (by simpa using inside) (by simpa using inside') same
  · -- Links between a record and its mirror are read off unchanged fields.
    rw [mirrored, negationOf]
    exact owned.mirror other mirror
  · rw [negationOf] at negated
    rw [size_update, negationOf, checks, checks]
    exact owned.shares mirror other negated

/-- A created record owns the set of checks that is created with it. -/
theorem create (owned : ledger.Owned) {schema : Option SchemaId} {name : Option String} :
    (ledger.create schema name).2.Owned := by
  have bare : ledger.record ⟨ledger.size⟩ = default := record_next
  have negationOf (other : RecordId) :
      ((ledger.create schema name).2.record other).negationOf = (ledger.record other).negationOf :=
    field_create Record.negationOf rfl
  have mirrored (other : RecordId) :
      ((ledger.create schema name).2.record other).negation = (ledger.record other).negation :=
    field_create Record.negation rfl
  -- Any other record was there already.
  have old {other : RecordId} (inside : other.index < (ledger.create schema name).2.size)
      (here : other ≠ ⟨ledger.size⟩) : other.index < ledger.size :=
    RecordId.lt_last (by simpa using inside) here
  refine ⟨fun other inside => ?_, fun a b inside inside' same => ?_, fun other mirror => ?_,
    fun mirror other negated => ?_⟩
  · -- The new set is in range, and so are the others.
    rw [record_create, checkSets_create, Array.size_push]
    split
    · exact Nat.lt_succ_self _
    · rename_i here
      exact Nat.lt_succ_of_lt (owned.present other (old inside here))
  · simp only [positive, negationOf]
    -- The new set has the next number, so no record that was there before has it.
    simp only [record_create] at same
    split at same
    · rename_i hereA
      split at same
      · rename_i hereB
        rw [hereA, hereB]
      · rename_i hereB
        have below := owned.present b (old inside' hereB)
        rw [← same] at below
        exact absurd below (Nat.lt_irrefl _)
    · -- The same with the two records in the other order.
      rename_i hereA
      split at same
      · rename_i hereB
        have below := owned.present a (old inside hereA)
        rw [same] at below
        exact absurd below (Nat.lt_irrefl _)
      · rename_i hereB
        exact owned.apart a b (old inside hereA) (old inside' hereB) same
  · rw [mirrored, negationOf]
    exact owned.mirror other mirror
  · rw [negationOf] at negated
    obtain ⟨inside, positive', shared⟩ := owned.shares mirror other negated
    -- Neither end of such a link is the new record.
    have here : other ≠ ⟨ledger.size⟩ := RecordId.ne_next inside
    have here' : mirror ≠ ⟨ledger.size⟩ := by
      rintro rfl
      rw [bare] at negated
      cases negated
    rw [size_create, negationOf, record_create, record_create, if_neg here, if_neg here']
    exact ⟨Nat.lt_succ_of_lt inside, positive', shared⟩

/-- A negation shares the set of checks of its record. -/
theorem negate (owned : ledger.Owned) (inside : id.index < ledger.size)
    (positive' : (ledger.record id).negationOf = none)
    (unset : (ledger.record id).negation = none) : (ledger.negation id).2.Owned := by
  -- The place where the negation is put is empty before.
  have bare : ledger.record ⟨ledger.size⟩ = default := record_next
  have size := size_negation positive' unset
  have sets := checkSets_negation positive' unset
  have negationOf (other : RecordId) : ((ledger.negation id).2.record other).negationOf =
      if other = ⟨ledger.size⟩ then some id else (ledger.record other).negationOf := by
    rw [record_negation inside positive' unset]
    grind [negative]
  have checks (other : RecordId) : ((ledger.negation id).2.record other).checks =
      if other = ⟨ledger.size⟩ then (ledger.record id).checks else (ledger.record other).checks := by
    rw [record_negation inside positive' unset]
    grind [negative]
  have mirrored (other : RecordId) : ((ledger.negation id).2.record other).negation =
      if other = ⟨ledger.size⟩ then none
      else if other = id then some ⟨ledger.size⟩ else (ledger.record other).negation := by
    rw [record_negation inside positive' unset]
    grind [negative]
  -- All records but the last were there before.
  have old {other : RecordId} (inside : other.index < (ledger.negation id).2.size)
      (here : other ≠ ⟨ledger.size⟩) : other.index < ledger.size :=
    RecordId.lt_last (size ▸ inside) here
  refine ⟨fun other inside' => ?_, fun a b insideA insideB same => ?_, fun other mirror => ?_,
    fun mirror other negated => ?_⟩
  · -- No set is added, so the ranges are those from before.
    rw [checks, sets]
    split
    · exact owned.present id inside
    · rename_i here
      exact owned.present other (old inside' here)
  · -- The negation shares the set with its record, which is the owner of both.
    have own : ledger.positive id = id := by simp [positive, positive']
    simp only [checks] at same
    -- It is enough to know who owns the sets of the two records.
    simp only [positive, negationOf]
    split at same
    · rename_i hereA
      split at same
      · rename_i hereB
        rw [hereA, hereB]
      · -- The other record has the set of this one, hence belongs to it.
        rename_i hereB
        have owner := owned.apart id b inside (old insideB hereB) same
        simp only [hereA, hereB, if_true, if_false]
        exact own.symm.trans owner
    · rename_i hereA
      split at same
      · rename_i hereB
        have owner := owned.apart a id (old insideA hereA) inside same
        simp only [hereA, hereB, if_true, if_false]
        exact owner.trans own
      · rename_i hereB
        simp only [hereA, hereB, if_false]
        exact owned.apart a b (old insideA hereA) (old insideB hereB) same
  · -- The two new links mirror each other, and no old link leads to or from the new record.
    rw [mirrored, negationOf]
    have known := owned.mirror other mirror
    have first := owned.mirror id mirror
    have newest := owned.mirror other ⟨ledger.size⟩
    have last := owned.shares mirror other
    rw [bare] at newest
    simp only [unset] at first
    have none : (default : Record).negationOf = none := rfl
    rw [none] at newest
    grind
  · -- The links from the mirror are the new one and those from before.
    rw [negationOf] at negated
    rw [size, negationOf, checks, checks]
    have known := owned.shares mirror other
    grind

end Owned

end Ledger

end SchemaClasses
