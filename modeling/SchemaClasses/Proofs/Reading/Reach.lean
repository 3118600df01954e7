import Mathlib.Logic.Relation
import SchemaClasses.Proofs.Reading.Forms

/-! The places that schemas lead to, and the documents whose schemas are all well-formed there. -/

namespace SchemaClasses

namespace Documents

/-- The places of schemas that one member of the schema object at a place leads to. -/
def onwardFrom (documents : Documents) (place : Place) (key : String) (value : Json) : List Place :=
  if key ∈ schemaKeywords then [place.member key]
  else if key ∈ tableKeywords then
    (value.members?.getD []).map fun (name, _) => (place.member key).member name
  else if key ∈ branchKeywords then
    (List.range (value.items?.getD []).length).map (place.member key).item
  else if key = "$ref" then (value.text?.bind (documents.resolve? place.document)).toList
  else []

/-- The places of schemas that the schema at a place leads to: those inside its keywords, and those
that it refers to. -/
def onward (documents : Documents) (place : Place) : List Place :=
  match documents.valueAt? place with
  | some (.object members) => members.flatMap fun (key, value) => documents.onwardFrom place key value
  | _ => []

/-- Whether schemas lead from a place to another one. -/
def Reaches (documents : Documents) : Place → Place → Prop :=
  Relation.ReflTransGen fun place next => next ∈ documents.onward place

/-- Whether a boolean lies at a place, or an object whose members all have the form that is asked
for. -/
def isWellFormed (documents : Documents) (place : Place) : Bool :=
  match documents.valueAt? place with
  | some (.bool _) => true
  | some (.object members) =>
    members.all fun (key, value) => documents.accepts place.document key value
  | _ => false

/-- A set of places that schemas do not lead out of, and whose locations are all different. -/
structure Territory (documents : Documents) (within : Place → Prop) : Prop where
  onward : ∀ {place next}, within place → next ∈ documents.onward place → within next
  apart : ∀ {a b : Place}, within a → within b → a.location = b.location → a = b

variable {documents : Documents} {place next : Place} {key : String} {value : Json}

/-- A place is read from its location if its document has no `#`. -/
theorem place_inj {a b : Place} (plain : '#' ∉ a.document.toList) (plain' : '#' ∉ b.document.toList)
    (same : a.location = b.location) : a = b := by
  have parts : some (a.document, a.pointer) = some (b.document, b.pointer) := by
    rw [← Place.cutOnce_location plain, same, Place.cutOnce_location plain']
  cases a
  cases b
  simpa using parts

/-- A reference leads to its own document or to one that it names. -/
theorem document_of_resolve? {base text : String} (found : documents.resolve? base text = some next) :
    next.document = base ∨ ∃ uri, documents.canonical? uri = some next.document := by
  unfold resolve? at found
  dsimp only at found
  -- Either way only the pointer is checked, and the document stays.
  have reached {document fragment : String}
      (found : (if (fragment == "") = true ∨ fragment.toList.head? = some '/' then
        some (Place.mk document fragment) else none) = some next) : next.document = document := by
    split at found
    · cases found
      rfl
    · cases found
  -- A text without a document part stays in the document.
  split at found
  · exact .inl (reached found)
  · obtain ⟨document, named, found⟩ := Option.bind_eq_some_iff.mp found
    rw [reached found]
    -- The text is resolved against the document, or taken as it is.
    have either {first second : Option String} (named : (first <|> second) = some document) :
        first = some document ∨ second = some document := by
      cases first with
      | none => exact .inr named
      | some _ => exact .inl named
    rcases either named with named | named
    · exact .inr ⟨_, named⟩
    · exact .inr ⟨_, named⟩

/-- A member leads to places in its own document or in one that it names. -/
theorem document_of_mem_onwardFrom (leads : next ∈ documents.onwardFrom place key value) :
    next.document = place.document ∨ ∃ uri, documents.canonical? uri = some next.document := by
  -- A single schema and the entries of a table or of an array stay in the document; only a
  -- reference may leave it.
  unfold onwardFrom at leads
  split at leads
  · rw [List.mem_singleton.mp leads]
    exact .inl rfl
  · split at leads
    · obtain ⟨entry, -, rfl⟩ := List.mem_map.mp leads
      exact .inl rfl
    · split at leads
      · obtain ⟨index, -, rfl⟩ := List.mem_map.mp leads
        exact .inl rfl
      · split at leads
        · obtain ⟨text, -, found⟩ := Option.bind_eq_some_iff.mp (Option.mem_toList.mp leads)
          exact document_of_resolve? found
        · cases leads

/-- What a schema leads to one of its members leads to. -/
theorem mem_onward :
    next ∈ documents.onward place ↔
      ∃ members key value, documents.valueAt? place = some (.object members) ∧
        (key, value) ∈ members ∧ next ∈ documents.onwardFrom place key value := by
  unfold onward
  -- Only an object leads anywhere, and it does so through its members.
  split
  · rename_i members here
    simp only [List.mem_flatMap, Prod.exists, here, Option.some.injEq, Json.object.injEq]
    constructor
    · rintro ⟨key, value, member, leads⟩
      exact ⟨members, key, value, rfl, member, leads⟩
    · rintro ⟨_, key, value, rfl, member, leads⟩
      exact ⟨key, value, member, leads⟩
  · rename_i other
    constructor
    · exact fun leads => absurd leads List.not_mem_nil
    · rintro ⟨members, key, value, here, -⟩
      exact (other members here).elim

/-- The places in documents without `#` are such a set. -/
theorem Proper.territory (proper : documents.Proper) :
    documents.Territory fun place => '#' ∉ place.document.toList where
  onward {place next} plain leads := by
    obtain ⟨members, key, value, -, -, leads⟩ := mem_onward.mp leads
    rcases document_of_mem_onwardFrom leads with same | ⟨uri, named⟩
    · rw [same]
      exact plain
    · exact proper.unhashed uri _ named
  apart := place_inj

/-- The places that schemas lead to from a place in a document without `#` are such a set. -/
theorem Proper.territory_reaches (proper : documents.Proper) {root : Place}
    (plain : '#' ∉ root.document.toList) : documents.Territory (documents.Reaches root) := by
  have inside {place : Place} (reaches : documents.Reaches root place) :
      '#' ∉ place.document.toList := by
    induction reaches with
    | refl => exact plain
    | tail _ leads ih => exact proper.territory.onward ih leads
  exact ⟨fun reaches leads => reaches.tail leads,
    fun reaches reaches' same => place_inj (inside reaches) (inside reaches') same⟩

end Documents

namespace Reading

variable {documents : Documents} {place : Place} {key document : String} {value : Json}

/-- A member that is invalid does not have the form that is asked for. -/
theorem accepts_of_invalid {problem : SchemaProblem} (nested : nesting key value = .invalid problem) :
    documents.accepts document key value = false := by
  unfold nesting at nested
  split at nested <;> cases nested
  all_goals simp [Documents.accepts, tableKeywords, branchKeywords, numberKeywords, countKeywords,
      Json.members?, Json.items?, *]

/-- A member that holds a schema leads to it alone. -/
theorem of_nesting_schema (documents : Documents) (place : Place) {keyword : SchemaId → Keyword}
    (nested : nesting key value = .schema keyword) :
    documents.accepts place.document key value = true ∧
      documents.onwardFrom place key value = [place.member key] := by
  unfold nesting at nested
  split at nested <;> cases nested
  all_goals simp [Documents.accepts, tableKeywords, branchKeywords, numberKeywords, countKeywords,
      Documents.onwardFrom, schemaKeywords, Json.items?, *]

/-- A member that holds an array of schemas leads to each of them. -/
theorem of_nesting_schemas (documents : Documents) (place : Place)
    {keyword : List SchemaId → Keyword} {items : List Json}
    (nested : nesting key (.array items) = .schemas keyword) :
    documents.accepts place.document key (.array items) = true ∧
      documents.onwardFrom place key (.array items) =
        (List.range items.length).map (place.member key).item := by
  -- Each keyword that holds an array is one of the listed ones.
  unfold nesting at nested
  split at nested <;> cases nested
  all_goals simp [Documents.accepts, tableKeywords, branchKeywords, Documents.onwardFrom,
      schemaKeywords, Json.items?]

/-- A member that holds a table of schemas leads to each of them. -/
theorem of_nesting_table (documents : Documents) (place : Place)
    {keyword : List (String × SchemaId) → Keyword} {entries : List (String × Json)}
    (nested : nesting key (.object entries) = .table keyword) :
    documents.accepts place.document key (.object entries) = true ∧
      documents.onwardFrom place key (.object entries) =
        entries.map fun (name, _) => (place.member key).member name := by
  -- Each keyword that holds a table is one of the listed ones.
  unfold nesting at nested
  split at nested <;> cases nested
  all_goals simp [Documents.accepts, tableKeywords, Documents.onwardFrom, schemaKeywords,
      Json.members?]

/-- What a reference must lead to. -/
theorem accepts_reference :
    documents.accepts document "$ref" value =
      ((value.text?.bind (documents.resolve? document)).bind documents.valueAt?).isSome := by
  simp [Documents.accepts, tableKeywords, branchKeywords, numberKeywords, countKeywords]

/-- A reference leads to what it names. -/
theorem onwardFrom_reference :
    documents.onwardFrom place "$ref" value =
      (value.text?.bind (documents.resolve? place.document)).toList := by
  simp [Documents.onwardFrom, schemaKeywords, tableKeywords, branchKeywords]

/-- Keywords that neither hold schemas nor refer to one lead nowhere. -/
theorem onwardFrom_plain (plain : nesting key value = .none) (direct : key ≠ "$ref") :
    documents.onwardFrom place key value = [] := by
  obtain ⟨single, table, branch⟩ := notMem_of_nesting plain
  rw [Documents.onwardFrom, if_neg single, if_neg table, if_neg branch, if_neg direct]

/-- What is no keyword with schemas inside holds none. -/
theorem nesting_eq_none (invalid : ∀ problem, nesting key value = .invalid problem → False)
    (schema : ∀ keyword, nesting key value = .schema keyword → False)
    (schemas : ∀ keyword items, nesting key value = .schemas keyword → value = .array items → False)
    (table : ∀ keyword entries,
      nesting key value = .table keyword → value = .object entries → False) :
    nesting key value = .none := by
  unfold nesting at *
  split at * <;> simp_all

end Reading

end SchemaClasses
