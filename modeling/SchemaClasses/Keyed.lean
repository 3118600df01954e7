/-! Tables with text keys that remember the order of first insertion. -/

namespace SchemaClasses

/-- Entries in the order in which their keys first appeared. -/
structure Keyed (α : Type) where
  entries : List (String × α) := []
deriving Repr, Inhabited

namespace Keyed

variable {α β : Type}

/-- The value stored under a key. -/
def find? (table : Keyed α) (key : String) : Option α := table.entries.lookup key

/-- Whether a key is stored. -/
def contains (table : Keyed α) (key : String) : Bool := (table.find? key).isSome

/-- A value replaced where its key stands, or added at the end. -/
def insertInto (key : String) (value : α) : List (String × α) → List (String × α)
  | [] => [(key, value)]
  | (k, v) :: rest =>
    if k == key then (k, value) :: rest else (k, v) :: insertInto key value rest

/-- A key that is already present keeps its place and takes the new value. -/
def insert (table : Keyed α) (key : String) (value : α) : Keyed α :=
  ⟨insertInto key value table.entries⟩

/-- Whether nothing is stored. -/
def isEmpty (table : Keyed α) : Bool := table.entries.isEmpty

/-- The stored values, in order. -/
def values (table : Keyed α) : List α := table.entries.map (·.2)

/-- The stored keys, in order. -/
def keys (table : Keyed α) : List String := table.entries.map (·.1)

/-- A table holding the entries in order, where a repeated key keeps its first place. -/
def ofList (entries : List (String × α)) : Keyed α :=
  entries.foldl (fun table (key, value) => table.insert key value) {}

/-- The same keys with transformed values. -/
def map (f : α → β) (table : Keyed α) : Keyed β :=
  ⟨table.entries.map fun (key, value) => (key, f value)⟩

end Keyed

end SchemaClasses
