import Mathlib.Data.List.Nodup
import SchemaClasses.Constants

/-! The names of constants: each constant is named by its kind and its place in the pool, so a name that was
given for a value stands for that value alone, whatever is added afterwards. -/

namespace SchemaClasses

/-- Names made from different places differ, whatever their kinds. -/
theorem ConstantKind.place_eq {a b : ConstantKind} {place place' : Nat}
    (same : a.stem ++ toString place = b.stem ++ toString place') : place = place' := by
  have texts : a.stem.toList ++ Nat.toDigits 10 place =
      b.stem.toList ++ Nat.toDigits 10 place' := by
    simpa [Nat.toString_eq_repr, Nat.repr_eq_ofList_toDigits] using congrArg String.toList same
  -- Stems that differ at all differ before the first digit.
  have stems : a.stem = b.stem := by
    cases a <;> cases b <;> first | rfl | simp [stem] at texts
  rw [stems, List.append_cancel_left_eq] at texts
  calc place = Nat.ofDigitChars 10 (Nat.toDigits 10 place) 0 :=
        (Nat.ofDigitChars_toDigits (by decide) (by decide)).symm
    _ = Nat.ofDigitChars 10 (Nat.toDigits 10 place') 0 := by rw [texts]
    _ = place' := Nat.ofDigitChars_toDigits (by decide) (by decide)

namespace ConstantPool

variable {pool grown : ConstantPool} {name : String} {kind : ConstantKind} {value : ConstantValue}

/-- A larger pool still holds the constants of a smaller one, under the same names. -/
theorem get?_of_grown (longer : pool.entries <+: grown.entries) {constant : Constant}
    (found : pool.get? name = some constant) : grown.get? name = some constant := by
  obtain ⟨added, same⟩ := longer
  rw [get?, ← same, List.find?_append]
  rw [get?] at found
  rw [found]
  rfl

/-- A constant in use stays in use in a larger pool. -/
theorem isSome_get?_of_grown (longer : pool.entries <+: grown.entries)
    (found : (pool.get? name).isSome) : (grown.get? name).isSome := by
  obtain ⟨constant, found⟩ := Option.isSome_iff_exists.mp found
  rw [get?_of_grown longer found]
  rfl

/-- Whether a pool has a constant of a name and kind. -/
def Holds (pool : ConstantPool) (name : String) (kind : ConstantKind) : Prop :=
  ∃ constant ∈ pool.entries, constant.name = name ∧ constant.kind = kind

/-- A larger pool holds what a smaller one does. -/
theorem Holds.of_grown (holds : pool.Holds name kind) (longer : pool.entries <+: grown.entries) :
    grown.Holds name kind := by
  obtain ⟨constant, member, same⟩ := holds
  exact ⟨constant, longer.subset member, same⟩

/-- A constant that is held is found under its name. -/
theorem Holds.isSome_get? (holds : pool.Holds name kind) : (pool.get? name).isSome := by
  obtain ⟨constant, member, named, -⟩ := holds
  rw [get?, List.find?_isSome]
  exact ⟨constant, member, by simpa using named⟩

/-- A constant that is added is there under its name. -/
theorem exists_add (pool : ConstantPool) (kind : ConstantKind) (value : ConstantValue) :
    ∃ constant ∈ (pool.add kind value).2.entries,
      constant.name = (pool.add kind value).1 ∧ constant.kind = kind ∧ constant.value = value := by
  -- A value is added under a new name only if none of its kind is there yet.
  unfold add
  split
  · -- The value was there already, under the name that is given again.
    rename_i entry found
    have same := List.find?_some found
    simp only [decide_eq_true_eq] at same
    exact ⟨entry, List.mem_of_find?_eq_some found, rfl, same⟩
  · exact ⟨_, List.mem_append_right _ (List.mem_singleton.mpr rfl), rfl, rfl, rfl⟩

/-- A constant that is added is held under its name. -/
theorem holds_add (pool : ConstantPool) (kind : ConstantKind) (value : ConstantValue) :
    (pool.add kind value).2.Holds (pool.add kind value).1 kind := by
  obtain ⟨constant, member, named, same, -⟩ := exists_add pool kind value
  exact ⟨constant, member, named, same⟩

/-- Constants are added at the end. -/
theorem prefix_add (pool : ConstantPool) (kind : ConstantKind) (value : ConstantValue) :
    pool.entries <+: (pool.add kind value).2.entries := by
  unfold add
  split
  · exact List.prefix_rfl
  · exact List.prefix_append _ _

/-- A pool whose constants are named by their kinds and places. -/
def Numbered (pool : ConstantPool) : Prop :=
  ∀ (place : Nat) (constant : Constant), pool.entries[place]? = some constant →
    constant.name = constant.kind.stem ++ toString place

/-- A constant that is added is named by its place. -/
theorem Numbered.add (numbered : pool.Numbered) (kind : ConstantKind) (value : ConstantValue) :
    (pool.add kind value).2.Numbered := by
  unfold ConstantPool.add
  split
  · -- Nothing was added, or the new constant stands behind all others.
    exact numbered
  · intro place constant found
    rw [List.getElem?_append] at found
    split at found
    · exact numbered place constant found
    · -- The new constant is the last one.
      rename_i past
      obtain ⟨last, rfl⟩ := List.getElem?_eq_some_iff.mp found
      have same : place = pool.entries.length := by
        simp only [List.length_singleton] at last
        omega
      simp [same]

/-- The constants of a pool have different names. -/
theorem Numbered.nodup_names (numbered : pool.Numbered) : (pool.entries.map Constant.name).Nodup := by
  rw [List.Nodup, List.pairwise_map, List.pairwise_iff_getElem]
  intro place place' inside inside' earlier same
  -- Two constants of one name would stand in one place.
  rw [numbered place _ (List.getElem?_eq_getElem inside),
    numbered place' _ (List.getElem?_eq_getElem inside')] at same
  exact absurd (ConstantKind.place_eq same) (Nat.ne_of_lt earlier)

/-- A constant is found under its name. -/
theorem Numbered.get?_of_mem (numbered : pool.Numbered) {constant : Constant}
    (member : constant ∈ pool.entries) : pool.get? constant.name = some constant := by
  obtain ⟨found, same⟩ := Option.isSome_iff_exists.mp
    (Holds.isSome_get? ⟨constant, member, rfl, rfl⟩)
  have named : found.name = constant.name := by simpa using List.find?_some same
  rw [same, List.inj_on_of_nodup_map numbered.nodup_names (List.mem_of_find?_eq_some same) member named]

/-- A value that is added is found under the name given for it, also when more has been added. -/
theorem Numbered.get?_add (numbered : grown.Numbered)
    (longer : (pool.add kind value).2.entries <+: grown.entries) :
    grown.get? (pool.add kind value).1 = some ⟨(pool.add kind value).1, kind, value⟩ := by
  obtain ⟨constant, member, named, rfl, rfl⟩ := exists_add pool kind value
  rw [← named, numbered.get?_of_mem (longer.subset member)]

/-- A constant that was added is not added to a pool that has grown since. -/
theorem add_of_grown (longer : (pool.add kind value).2.entries <+: grown.entries) :
    grown.add kind value = ((pool.add kind value).1, grown) := by
  -- The first constant of this kind and value is the one that was found or added then.
  have found : ∃ entry, (pool.add kind value).2.holding? kind value = some entry ∧
      entry.name = (pool.add kind value).1 := by
    unfold add
    split
    · rename_i entry found
      exact ⟨entry, found, rfl⟩
    · -- A new constant joins at the end, where the search finds it as the first of its kind and
      -- value.
      rename_i absent
      refine ⟨⟨kind.stem ++ toString pool.entries.length, kind, value⟩, ?_, rfl⟩
      rw [holding?] at absent ⊢
      rw [List.find?_append, absent]
      simp
  obtain ⟨entry, found, named⟩ := found
  have found' : grown.holding? kind value = some entry := by
    obtain ⟨more, same⟩ := longer
    rw [holding?] at found ⊢
    rw [← same, List.find?_append, found, Option.some_or]
  rw [add, found']
  exact Prod.ext named rfl

/-- A pool that comes about by adding one value after another. -/
inductive Built : ConstantPool → Prop where
  | empty : Built {}
  | add {pool : ConstantPool} (built : Built pool) (kind : ConstantKind) (value : ConstantValue) :
      Built (pool.add kind value).2

theorem Built.numbered (built : pool.Built) : pool.Numbered := by
  induction built with
  | empty => intro place constant found; simp at found
  | add _ kind value ih => exact ih.add kind value

/-- A pool after more values have been added, one after another. -/
def addAll (pool : ConstantPool) (values : List (ConstantKind × ConstantValue)) : ConstantPool :=
  values.foldl (fun pool next => (pool.add next.1 next.2).2) pool

/-- Values that are added leave the constants before them in their places. -/
theorem prefix_addAll (pool : ConstantPool) (values : List (ConstantKind × ConstantValue)) :
    pool.entries <+: (pool.addAll values).entries := by
  induction values generalizing pool with
  | nil => exact List.prefix_rfl
  | cons next rest ih => exact (prefix_add pool next.1 next.2).trans (ih _)

theorem Built.addAll (built : pool.Built) (values : List (ConstantKind × ConstantValue)) :
    (pool.addAll values).Built := by
  induction values generalizing pool with
  | nil => exact built
  | cons next rest ih => exact ih (built.add next.1 next.2)

/-- Whether a name stands for a kind and value in a pool, and for nothing else: a constant of both is found
under the name, adding them once more gives the name again and changes nothing, and no other kind or value is
given it. -/
structure StandsFor (pool : ConstantPool) (name : String) (kind : ConstantKind) (value : ConstantValue) :
    Prop where
  found : pool.get? name = some ⟨name, kind, value⟩
  again : pool.add kind value = (name, pool)
  alone : ∀ kind' value', (pool.add kind' value').1 = name → kind' = kind ∧ value' = value

/-- The name given for a value stands for it in every larger pool. -/
theorem Numbered.standsFor (numbered : grown.Numbered)
    (longer : (pool.add kind value).2.entries <+: grown.entries) :
    grown.StandsFor (pool.add kind value).1 kind value where
  found := numbered.get?_add longer
  again := add_of_grown longer
  alone kind' value' same := by
    -- After the other value has been added too, both are found under the one name.
    have numbered' := numbered.add kind' value'
    have found := numbered'.get?_add (longer.trans (prefix_add grown kind' value'))
    rw [← same, numbered'.get?_add List.prefix_rfl, Option.some_inj, Constant.mk.injEq] at found
    exact found.2

/-- Whatever is added to an empty pool before a value and after it, the name given for the value stands for
it in the end. -/
theorem standsFor_addAll (earlier later : List (ConstantKind × ConstantValue)) (kind : ConstantKind)
    (value : ConstantValue) :
    let pool := addAll {} earlier
    ((pool.add kind value).2.addAll later).StandsFor (pool.add kind value).1 kind value := by
  intro pool
  have built : pool.Built := Built.empty.addAll earlier
  exact ((built.add kind value).addAll later).numbered.standsFor (prefix_addAll _ later)

/-- The kinds of arrays share a stem, and the same place is never numbered twice. -/
example :
    let texts := add {} .stringArray (.texts ["a"])
    let numbers := texts.2.add .numberArray (.numbers [.whole 1])
    (texts.1, numbers.1, (numbers.2.add .stringArray (.texts ["a"])).1) =
      ("cg_array0", "cg_array1", "cg_array0") := by
  decide

end ConstantPool

end SchemaClasses
