import SchemaClasses.Pointer
import SchemaClasses.Schema

/-! All schemas of a run, numbered in the order in which they were first met. -/

namespace SchemaClasses

/-- The schemas of a run, each location at most once. -/
structure SchemaTree where
  schemas : Array Schema := #[]
deriving Repr, Inhabited

namespace SchemaTree

/-- The schema at a location. -/
def find? (tree : SchemaTree) (location : String) : Option SchemaId :=
  (tree.schemas.findIdx? fun schema => schema.location == location).map SchemaId.mk

/-- The schema of a number. -/
def schema (tree : SchemaTree) (id : SchemaId) : Schema :=
  tree.schemas.getD id.index default

/-- The place of a schema. -/
def location (tree : SchemaTree) (id : SchemaId) : String := (tree.schema id).location

/-- The numbers of all schemas. -/
def ids (tree : SchemaTree) : List SchemaId := (List.range tree.schemas.size).map SchemaId.mk

/-- The number of schemas and keywords. -/
def size (tree : SchemaTree) : Nat :=
  tree.schemas.foldl (fun total schema => total + schema.clauses.length) tree.schemas.size

/-- The schema that a reference and nothing else leads to. -/
def pureReference? (tree : SchemaTree) (id : SchemaId) : Option SchemaId :=
  (tree.schema id).pureReference?

/-- A new schema at a location; until it is completed it admits everything. -/
def reserve (tree : SchemaTree) (location : String) : SchemaId × SchemaTree :=
  (⟨tree.schemas.size⟩, ⟨tree.schemas.push { location }⟩)

/-- A reserved schema with what it states. -/
def complete (tree : SchemaTree) (id : SchemaId) (body : SchemaBody) : SchemaTree :=
  ⟨tree.schemas.modify id.index fun schema => { schema with body }⟩

/-- The last name in a location: the last token of its pointer, or the last segment of the
document's URI for a document root. -/
def lastSegment (tree : SchemaTree) (id : SchemaId) : String :=
  let (document, pointer) := (cutOnce '#' (tree.location id)).getD (tree.location id, "")
  Pointer.unescape (lastPiece '/' (if pointer == "" then document else pointer))

end SchemaTree

/-! Lists of things that may still be visited, which bound the depth of a visit. -/

/-- Fewer things are pending once one of them is being visited. -/
theorem length_erase_lt {α : Type} [BEq α] [LawfulBEq α] {a : α} {pending : List α}
    (waiting : a ∈ pending) : (pending.erase a).length < pending.length := by
  have shorter := List.length_erase_of_mem waiting
  have := List.length_pos_of_mem waiting
  omega

end SchemaClasses
