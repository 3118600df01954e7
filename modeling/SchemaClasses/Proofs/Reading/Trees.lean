import SchemaClasses.Proofs.Run
import SchemaClasses.SchemaTree.Reading

/-! Trees of schemas while they grow: schemas join behind the others, and each run of reading leaves
those alone that were there before. -/

namespace SchemaClasses

/-- Schema numbers are equal when their indices are. -/
theorem SchemaId.ext {a b : SchemaId} (same : a.index = b.index) : a = b := by
  cases a
  cases b
  exact congrArg SchemaId.mk same

namespace SchemaTree

variable {tree first last middle : SchemaTree} {id other : SchemaId} {location : String}

/-- A number past the end stands for an empty schema. -/
theorem schema_of_size_le (past : tree.schemas.size ≤ id.index) : tree.schema id = default := by
  simp [schema, Array.getElem?_eq_none past]

@[simp] theorem size_reserve :
    (tree.reserve location).2.schemas.size = tree.schemas.size + 1 := by
  simp [reserve]

/-- A reserved schema comes behind all others. -/
theorem schema_reserve :
    (tree.reserve location).2.schema id =
      if id.index = tree.schemas.size then { location } else tree.schema id := by
  simp only [schema, reserve, Array.getD_eq_getD_getElem?, Array.getElem?_push]
  split <;> rfl

@[simp] theorem size_complete {body : SchemaBody} :
    (tree.complete id body).schemas.size = tree.schemas.size := by
  simp [complete]

/-- A schema after one was completed is that one or as it was. -/
theorem schema_complete {body : SchemaBody} :
    (tree.complete id body).schema other =
      if other = id ∧ id.index < tree.schemas.size then { tree.schema id with body }
      else tree.schema other := by
  by_cases same : other = id
  · subst same
    by_cases inside : other.index < tree.schemas.size
    · simp [schema, complete, Array.getElem_modify, inside]
    · -- Past the end both trees answer with the default schema.
      have past : tree.schemas.size ≤ other.index := Nat.not_lt.mp inside
      rw [schema_of_size_le (by simpa using past), schema_of_size_le past]
      simp [inside]
  · -- Another index is not written to.
    have apart : id.index ≠ other.index := fun index => same (SchemaId.ext index.symm)
    simp [schema, complete, Array.getElem?_modify, apart, same]

/-- Completing a schema does not move it. -/
@[simp] theorem location_complete {body : SchemaBody} :
    (tree.complete id body).location other = tree.location other := by
  rw [SchemaTree.location, schema_complete]
  split
  · rename_i same
    rw [same.1]
    rfl
  · rfl

/-- The location of a schema with a number in use. -/
theorem location_eq (inside : id.index < tree.schemas.size) :
    tree.location id = tree.schemas[id.index].location := by
  simp [SchemaTree.location, schema, Array.getD_eq_getD_getElem?, inside]

/-- The schema at a location is the first one there. -/
theorem find?_eq_some :
    tree.find? location = some id ↔
      id.index < tree.schemas.size ∧ tree.location id = location ∧
        ∀ other : SchemaId, other.index < id.index → tree.location other ≠ location := by
  -- Identifiers are wrapped indices, so that the search for the first index says it all.
  have first : tree.find? location = some id ↔
      tree.schemas.findIdx? (fun schema => schema.location == location) = some id.index := by
    rw [find?, Option.map_eq_some_iff]
    constructor
    · rintro ⟨index, found, rfl⟩
      exact found
    · exact fun found => ⟨id.index, found, rfl⟩
  -- What is left to show is that locations read through the tree are those of its array.
  rw [first, Array.findIdx?_eq_some_iff_getElem]
  constructor
  · rintro ⟨inside, here, before⟩
    refine ⟨inside, (location_eq inside).trans (by simpa using here), fun other sooner => ?_⟩
    rw [location_eq (Nat.lt_trans sooner inside)]
    simpa using before other.index sooner
  · rintro ⟨inside, here, before⟩
    refine ⟨inside, by simpa [location_eq inside] using here, fun index sooner => ?_⟩
    have apart := before ⟨index⟩ sooner
    rw [location_eq (Nat.lt_trans sooner inside)] at apart
    simpa using apart

/-- Nothing is found at a location where no schema is. -/
theorem find?_eq_none :
    tree.find? location = none ↔
      ∀ id : SchemaId, id.index < tree.schemas.size → tree.location id ≠ location := by
  rw [find?, Option.map_eq_none_iff, Array.findIdx?_eq_none_iff]
  -- To look through the array is to look through all identifiers below its size.
  constructor
  · intro none id inside
    rw [location_eq inside]
    simpa using none _ (Array.getElem_mem inside)
  · intro none schema member
    obtain ⟨index, inside, rfl⟩ := Array.mem_iff_getElem.mp member
    have apart := none ⟨index⟩ inside
    rw [location_eq inside] at apart
    simpa using apart

/-- Completing a schema does not change what is found. -/
@[simp] theorem find?_complete {body : SchemaBody} :
    (tree.complete id body).find? location = tree.find? location := by
  cases found : tree.find? location with
  | none => simpa [find?_eq_none] using found
  | some other => simpa [find?_eq_some] using found

/-- A later state of a tree: schemas may have joined, and those that were there are as they were. -/
structure Continues (first last : SchemaTree) : Prop where
  size : first.schemas.size ≤ last.schemas.size
  schema : ∀ id : SchemaId, id.index < first.schemas.size → last.schema id = first.schema id

namespace Continues

theorem refl (tree : SchemaTree) : tree.Continues tree := ⟨Nat.le_refl _, fun _ _ => rfl⟩

theorem trans (continues : first.Continues middle) (further : middle.Continues last) :
    first.Continues last where
  size := Nat.le_trans continues.size further.size
  schema id inside :=
    (further.schema id (Nat.lt_of_lt_of_le inside continues.size)).trans (continues.schema id inside)

/-- A new schema joins. -/
theorem reserve : tree.Continues (tree.reserve location).2 where
  size := by simp
  schema id inside := by rw [schema_reserve, if_neg (by omega)]

/-- A schema that has joined is completed. -/
theorem complete {body : SchemaBody} (continues : first.Continues tree)
    (joined : first.schemas.size ≤ id.index) : first.Continues (tree.complete id body) where
  size := by simpa using continues.size
  schema other inside := by
    rw [schema_complete, if_neg, continues.schema other inside]
    rintro ⟨rfl, -⟩
    omega

/-- What was found is still found. -/
theorem find? (continues : first.Continues last) (found : first.find? location = some id) :
    last.find? location = some id := by
  rw [find?_eq_some] at found ⊢
  obtain ⟨inside, here, before⟩ := found
  -- Schemas that were there are as before, and with them their locations.
  have same (other : SchemaId) (inside : other.index < first.schemas.size) :
      last.location other = first.location other := by
    rw [SchemaTree.location, SchemaTree.location, continues.schema other inside]
  -- The later schemas come after all of these, so that the first one remains the first.
  refine ⟨Nat.lt_of_lt_of_le inside continues.size, (same id inside).trans here,
    fun other sooner => ?_⟩
  rw [same other (Nat.lt_trans sooner inside)]
  exact before other sooner

end Continues

/-- A reserved schema is found at its location. -/
theorem find?_reserve (fresh : tree.find? location = none) :
    (tree.reserve location).2.find? location = some ⟨tree.schemas.size⟩ := by
  rw [find?_eq_some]
  refine ⟨by simp, by simp [SchemaTree.location, schema_reserve], fun other sooner => ?_⟩
  have inside : other.index < tree.schemas.size := sooner
  rw [SchemaTree.location, schema_reserve, if_neg (by omega)]
  exact find?_eq_none.mp fresh other inside

end SchemaTree

end SchemaClasses
