import Mathlib.Data.List.Perm.Subperm
import SchemaClasses.Proofs.Reading.Places

/-! Equality of values that a document can hold is an equivalence. -/

namespace SchemaClasses

namespace Binary64

/-- A double is numerically equal to itself. -/
theorem equals_refl (x : Binary64) : x.equals x = true := equals_iff.mpr (.inl rfl)

/-- Numeric equality is symmetric. -/
theorem equals_symm {x y : Binary64} (same : x.equals y = true) : y.equals x = true := by
  rw [equals_iff] at *
  exact same.imp Eq.symm And.symm

end Binary64

namespace Json

/-- Item by item equality is reflexive as far as equality of the items is. -/
theorem sameItems_refl {items : List Json} (each : ∀ item ∈ items, same item item = true) :
    sameItems items items = true := by
  induction items with
  | nil => rfl
  | cons item rest ih =>
    simp only [sameItems, Bool.and_eq_true]
    exact ⟨each item List.mem_cons_self,
      ih fun other member => each other (List.mem_cons_of_mem _ member)⟩

/-- Item by item equality is symmetric as far as equality of the items is. -/
theorem sameItems_symm {as bs : List Json}
    (each : ∀ a ∈ as, ∀ b, same a b = true → same b a = true) (agree : sameItems as bs = true) :
    sameItems bs as = true := by
  induction as generalizing bs with
  | nil =>
    cases bs with
    | nil => rfl
    | cons b bs => simp [sameItems] at agree
  | cons a as ih =>
    -- The other list has an item for each of this one, so the heads are compared first.
    obtain _ | ⟨b, bs⟩ := bs
    · simp [sameItems] at agree
    simp only [sameItems, Bool.and_eq_true] at agree ⊢
    exact ⟨each a List.mem_cons_self b agree.1,
      ih (fun other member => each other (List.mem_cons_of_mem _ member)) agree.2⟩

/-- Objects that are equal member by member in one direction are so in the other, if they have as many
members and those of the first have different names. -/
theorem sameMembers_symm {as bs : List (String × Json)} (apart : (as.map (·.1)).Nodup)
    (size : as.length = bs.length)
    (each : ∀ pair ∈ as, ∀ b, same pair.2 b = true → same b pair.2 = true)
    (agree : sameMembers as bs = true) : sameMembers bs as = true := by
  rw [sameMembers_iff] at *
  -- As many different names on the left as there are on the right leave no room for others.
  have named : as.map (·.1) ⊆ bs.map (·.1) := by
    intro key member
    obtain ⟨⟨name, value⟩, stands, rfl⟩ := List.mem_map.mp member
    obtain ⟨other, found, -⟩ := agree name value stands
    exact List.mem_map.mpr ⟨(name, other), mem_of_lookup_eq_some found, rfl⟩
  have perm : (as.map (·.1)).Perm (bs.map (·.1)) :=
    (apart.subperm named).perm_of_length_le (by simp [size])
  -- Each key of the second object is one of the first, which is then looked up in the second.
  intro key b member
  obtain ⟨⟨name, a⟩, member', rfl⟩ :=
    List.mem_map.mp (perm.mem_iff.mpr (List.mem_map.mpr ⟨(key, b), member, rfl⟩))
  obtain ⟨other, found, same'⟩ := agree name a member'
  have here := lookup_of_mem_of_nodup (perm.nodup_iff.mp apart) member
  obtain rfl : other = b := Option.some.inj (found.symm.trans here)
  exact ⟨a, lookup_of_mem_of_nodup apart member', each _ member' _ same'⟩

/-- A proper value is equal to itself. -/
theorem same_refl {a : Json} (proper : a.isProper = true) : same a a = true := by
  match a with
  | null => rfl
  | bool _ => simp [same]
  | integer _ => simp [same]
  | float x => exact Binary64.equals_refl x
  | string _ => simp [same]
  | array items =>
    rw [same]
    -- Each item is proper and smaller than the array.
    exact sameItems_refl fun item member => same_refl (isProper_of_mem_items proper member)
  | object members =>
    -- A member is found under its own key, as the keys of a proper object differ.
    simp only [same, beq_self_eq_true, Bool.true_and]
    rw [sameMembers_iff]
    intro key value member
    exact ⟨value, lookup_of_mem_members proper member,
      same_refl (isProper_of_mem_members proper member)⟩
termination_by sizeOf a
decreasing_by
  · have := List.sizeOf_lt_of_mem member
    simp
    omega
  · have := List.sizeOf_lt_of_mem member
    simp at this ⊢
    omega

/-- Equality of values is symmetric if the first one is proper. -/
theorem same_symm {a b : Json} (proper : a.isProper = true) (agree : same a b = true) :
    same b a = true := by
  match a, b with
  -- Values of different kinds are never equal, so only pairs of one kind are left.
  | null, null => rfl
  | bool _, bool _ => simp_all [same]
  | integer _, integer _ => simp_all [same]
  | float _, float _ => exact Binary64.equals_symm agree
  | string _, string _ => simp_all [same]
  | array as, array bs =>
    rw [same] at *
    exact sameItems_symm (fun item member _ => same_symm (isProper_of_mem_items proper member)) agree
  | object as, object bs =>
    simp only [same, Bool.and_eq_true, beq_iff_eq] at *
    -- That the keys of the first object differ is what symmetry needs.
    have apart := of_decide_eq_true (Bool.and_eq_true_iff.mp proper).1
    exact ⟨agree.1.symm, sameMembers_symm apart agree.1
      (fun pair member _ => same_symm (isProper_of_mem_members proper member)) agree.2⟩
termination_by sizeOf a
decreasing_by
  · have := List.sizeOf_lt_of_mem member
    simp
    omega
  · have := List.sizeOf_lt_of_mem member
    obtain ⟨key, value⟩ := pair
    simp at this ⊢
    omega

/-- A list of proper values is equal to itself. -/
theorem list_beq_refl {values : List Json} (proper : ∀ value ∈ values, value.isProper = true) :
    (values == values) = true := by
  induction values with
  | nil => rfl
  | cons value rest ih =>
    rw [List.cons_beq_cons, Bool.and_eq_true]
    exact ⟨same_refl (proper value List.mem_cons_self),
      ih fun other member => proper other (List.mem_cons_of_mem _ member)⟩

/-- Equality of lists of values is symmetric if those of the first one are proper. -/
theorem list_beq_symm {as bs : List Json} (proper : ∀ value ∈ as, value.isProper = true)
    (agree : (as == bs) = true) : (bs == as) = true := by
  induction as generalizing bs with
  | nil =>
    cases bs with
    | nil => rfl
    | cons b bs => simp at agree
  -- The lists have as many items, and the heads are equal in both directions.
  | cons a as ih =>
    obtain _ | ⟨b, bs⟩ := bs
    · simp at agree
    simp only [List.cons_beq_cons, Bool.and_eq_true] at agree ⊢
    exact ⟨same_symm (proper a List.mem_cons_self) agree.1,
      ih (fun other member => proper other (List.mem_cons_of_mem _ member)) agree.2⟩

end Json

namespace DefaultValue

mutual

/-- A default value is equal to itself. -/
theorem same_refl : ∀ value : DefaultValue, same value value = true
  | null => rfl
  | boolean _ => by simp [same]
  | integer _ => by simp [same]
  | decimal x => Binary64.equals_refl x
  | string _ => by simp [same]
  | array items => by
    rw [same]
    exact sameItems_refl items

/-- Default values are equal to themselves item by item. -/
theorem sameItems_refl : ∀ values : List DefaultValue, sameItems values values = true
  | [] => rfl
  | value :: rest => by
    simp only [sameItems, Bool.and_eq_true]
    exact ⟨same_refl value, sameItems_refl rest⟩

end

mutual

/-- Equality of default values is symmetric. -/
theorem same_symm : ∀ {a b : DefaultValue}, same a b = true → same b a = true
  | null, null, _ => rfl
  | boolean _, boolean _, agree => by simp_all [same]
  | integer _, integer _, agree => by simp_all [same]
  | decimal _, decimal _, agree => Binary64.equals_symm agree
  | string _, string _, agree => by simp_all [same]
  | array as, array bs, agree => by
    rw [same] at *
    exact sameItems_symm agree

/-- Equality item by item is symmetric. -/
theorem sameItems_symm : ∀ {as bs : List DefaultValue}, sameItems as bs = true →
    sameItems bs as = true
  | [], [], _ => rfl
  | a :: as, b :: bs, agree => by
    simp only [sameItems, Bool.and_eq_true] at agree ⊢
    exact ⟨same_symm agree.1, sameItems_symm agree.2⟩

end

end DefaultValue

end SchemaClasses
