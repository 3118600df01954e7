import SchemaClasses.Keyed
import SchemaClasses.Settings.Value

/-! Tables of a TOML document in the making, which know how they came to be. -/

namespace SchemaClasses

namespace Toml

/-- How a table came to be, which decides what may still be added to it. -/
inductive Origin where
  /-- From a header of its own, or as the document itself. -/
  | stated
  /-- On the way to the table of a longer header. -/
  | passed
  /-- On the way to the value of a dotted key. -/
  | dotted
deriving DecidableEq, Repr, Inhabited

mutual

/-- What a key stands for while the document is read. -/
inductive Item where
  | value (value : Setting)
  | table (table : Table)
  /-- The tables under one header in double brackets, the last one first. -/
  | tables (last : Table) (before : List Table)

/-- A table with its entries. -/
inductive Table where
  | mk (origin : Origin) (entries : List (String × Item))

end

namespace Table

/-- How the table came to be. -/
def origin : Table → Origin
  | mk origin _ => origin

/-- What the table holds. -/
def entries : Table → List (String × Item)
  | mk _ entries => entries

/-- A table without entries. -/
def empty (origin : Origin) : Table := mk origin []

/-- The table with other entries. -/
def withEntries (table : Table) (entries : List (String × Item)) : Table := mk table.origin entries

instance : Inhabited Table := ⟨empty .stated⟩

/-- The table with an item under a key. -/
def insert (table : Table) (key : String) (item : Item) : Table :=
  table.withEntries (Keyed.insertInto key item table.entries)

/-- What the table holds under a key. -/
def find? (table : Table) (key : String) : Option Item := table.entries.lookup key

/-- The table with a change made to the table at the end of a path, through tables that are made
where none stand. Below a header the path of a dotted key leads only through tables that have no
header of their own; through tables in double brackets a path leads into the last one. -/
def change? (made : Origin) (change : Table → Option Table) (table : Table) :
    List String → Option Table
  | [] => change table
  | key :: rest =>
    match table.find? key with
    | none => do return table.insert key (.table (← change? made change (empty made) rest))
    | some (.value _) => none
    | some (.tables last before) => do
      return table.insert key (.tables (← change? made change last rest) before)
    | some (.table below) =>
      if made = .dotted ∧ below.origin = .stated then none
      else do return table.insert key (.table (← change? made change below rest))

/-- The table with a value under a key that has no item yet. A dotted key adds only to tables that
dotted keys have made. -/
def put? (table : Table) (path : List String) (key : String) (value : Setting) : Option Table :=
  table.change? .dotted (fun target =>
    if !path.isEmpty && target.origin ≠ .dotted then none
    else if (target.find? key).isSome then none
    else some (target.insert key (.value value))) path

/-- The table for a header, where none has been stated; what longer headers put there is kept. -/
def start? (table : Table) (path : List String) (key : String) : Option Table :=
  table.change? .passed (fun parent =>
    match parent.find? key with
    | none => some (parent.insert key (.table (empty .stated)))
    | some (.table (mk .passed entries)) => some (parent.insert key (.table (mk .stated entries)))
    | some _ => none) path

/-- One more table under a header in double brackets. -/
def append? (table : Table) (path : List String) (key : String) : Option Table :=
  table.change? .passed (fun parent =>
    match parent.find? key with
    | none => some (parent.insert key (.tables (empty .stated) []))
    | some (.tables last before) =>
      some (parent.insert key (.tables (empty .stated) (last :: before)))
    | some _ => none) path

mutual

/-- The finished value of an item. -/
def ofItem : Item → Setting
  | .value value => value
  | .table table => finish table
  | .tables last before => .list (finishAll before ++ [finish last])

/-- The finished value of a table. -/
def finish : Table → Setting
  | mk _ entries => .table (finishEntries entries)

/-- The finished values of tables, the last one first. -/
def finishAll : List Table → List Setting
  | [] => []
  | table :: rest => finishAll rest ++ [finish table]

/-- The finished values of entries. -/
def finishEntries : List (String × Item) → List (String × Setting)
  | [] => []
  | (key, item) :: rest => (key, ofItem item) :: finishEntries rest

end

end Table

end Toml

end SchemaClasses
