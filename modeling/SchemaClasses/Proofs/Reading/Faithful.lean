import SchemaClasses.Proofs.Reading.Roots
import SchemaClasses.Proofs.Reading.Spelling

/-! Trees that are read from documents say what the documents say: every schema has its own place, it is
complete, and it agrees with the value there. -/

namespace SchemaClasses

section

variable {documents : Documents} {tree first middle last : SchemaTree} {place : Place} {value : Json}
variable {id : SchemaId}

/-- What reading has done to a tree: schemas have joined it, and each of them says what the documents
say at its place. -/
structure Faithful (documents : Documents) (first last : SchemaTree) : Prop where
  continues : first.Continues last
  renders : ∀ id : SchemaId, first.schemas.size ≤ id.index → id.index < last.schemas.size →
    last.Renders documents id

/-- What a schema says it says while others join. -/
theorem SchemaTree.Renders.later (renders : first.Renders documents id) (inside : id.index < first.schemas.size)
    (continues : first.Continues last) : last.Renders documents id := by
  obtain ⟨place, value, here, held, spells⟩ := renders
  refine ⟨place, value, ?_, held, ?_⟩
  · rw [SchemaTree.location, continues.schema id inside]
    exact here
  · rw [continues.schema id inside]
    exact spells.later fun _ _ found => continues.find? found

theorem Faithful.refl (tree : SchemaTree) : Faithful documents tree tree :=
  ⟨.refl tree, fun _ joined inside => absurd inside (Nat.not_lt.mpr joined)⟩

/-- What joined on the way says the same at the end. -/
theorem Faithful.trans (faithful : Faithful documents first middle)
    (further : Faithful documents middle last) : Faithful documents first last where
  continues := faithful.continues.trans further.continues
  renders id joined inside := by
    by_cases early : id.index < middle.schemas.size
    · exact (faithful.renders id joined early).later early further.continues
    · exact further.renders id (Nat.not_lt.mp early) inside

/-- The schema of a place joins, all that it leads to is read, and it is completed. -/
theorem Faithful.around {body : SchemaBody} (fresh : tree.find? place.location = none)
    (faithful : Faithful documents (tree.reserve place.location).2 last)
    (held : documents.valueAt? place = some value)
    (spells : body.Spells documents last place value) :
    Faithful documents tree (last.complete ⟨tree.schemas.size⟩ body) ∧
      (last.complete ⟨tree.schemas.size⟩ body).find? place.location = some ⟨tree.schemas.size⟩ := by
  -- While the parts were read, the schema kept the number under which it was reserved.
  have found := faithful.continues.find? (SchemaTree.find?_reserve fresh)
  have stays (location : String) (id : SchemaId) (found : last.find? location = some id) :
      (last.complete ⟨tree.schemas.size⟩ body).find? location = some id :=
    SchemaTree.find?_complete.trans found
  obtain ⟨joined, here, -⟩ := SchemaTree.find?_eq_some.mp found
  refine ⟨⟨(SchemaTree.Continues.reserve.trans faithful.continues).complete (Nat.le_refl _),
    fun id after inside => ?_⟩, stays _ _ found⟩
  rw [SchemaTree.size_complete] at inside
  by_cases same : id = ⟨tree.schemas.size⟩
  · -- The place itself is complete now.
    subst same
    refine ⟨place, value, SchemaTree.location_complete.trans here, held, ?_⟩
    rw [SchemaTree.schema_complete, if_pos ⟨rfl, joined⟩]
    exact spells.later stays
  · -- Another schema joined later, and it is not touched when this one is completed.
    have later : (tree.reserve place.location).2.schemas.size ≤ id.index := by
      have apart : id.index ≠ tree.schemas.size := fun index => same (SchemaId.ext index)
      rw [SchemaTree.size_reserve]
      omega
    obtain ⟨other, held', there, value', spells'⟩ := faithful.renders id later inside
    refine ⟨other, held', SchemaTree.location_complete.trans there, value', ?_⟩
    rw [SchemaTree.schema_complete, if_neg fun both => same both.1]
    exact spells'.later stays

end

namespace Reading

variable {α β γ : Type} {documents : Documents}

/-- A run of reading that leaves a tree faithful to the documents, and of whose result something holds
that lasts. -/
structure Conveys (documents : Documents) (done : α → SchemaTree → Prop) (step : Reading α) : Prop where
  ends : ∀ tree, Ends step tree
    (fun result last => Faithful documents tree last ∧ done result last) (fun _ => True)
  lasts : ∀ result, Lasting (done result)

namespace Conveys

variable {done : α → SchemaTree → Prop} {step : Reading α}

theorem pure {result : α} (lasts : ∀ result, Lasting (done result)) (holds : ∀ tree, done result tree) :
    Conveys documents done (Pure.pure result) :=
  ⟨fun tree => ⟨.refl tree, holds tree⟩, lasts⟩

/-- A run may convey less than it does. -/
theorem imp {done' : α → SchemaTree → Prop} (conveys : Conveys documents done step)
    (lasts : ∀ result, Lasting (done' result))
    (weaker : ∀ result tree, done result tree → done' result tree) :
    Conveys documents done' step :=
  ⟨fun tree => (conveys.ends tree).mono fun result last held => ⟨held.1, weaker result last held.2⟩,
    lasts⟩

theorem throw {fault : Fault} (lasts : ∀ result, Lasting (done result)) :
    Conveys documents done (throw fault : Reading α) :=
  ⟨fun _ => trivial, lasts⟩

/-- What a result is made of decides what holds of it. -/
theorem map {done' : β → SchemaTree → Prop} {make : α → β} (conveys : Conveys documents done step)
    (lasts : ∀ result, Lasting (done' result))
    (made : ∀ result tree, done result tree → done' (make result) tree) :
    Conveys documents done' (do return make (← step)) := by
  refine ⟨fun tree => ?_, lasts⟩
  rw [ends_bind]
  exact (conveys.ends tree).mono fun result last held => ⟨held.1, made result last held.2⟩

/-- Of two results that are put together, the first one's is still there. -/
theorem map₂ {done' : β → SchemaTree → Prop} {done'' : γ → SchemaTree → Prop} {next : Reading β}
    {make : α → β → γ} (conveys : Conveys documents done step)
    (conveys' : Conveys documents done' next) (lasts : ∀ result, Lasting (done'' result))
    (made : ∀ result result' tree, done result tree → done' result' tree →
      done'' (make result result') tree) :
    Conveys documents done'' (do
      let result ← step
      let result' ← next
      return make result result') := by
  refine ⟨fun tree => ?_, lasts⟩
  rw [ends_bind]
  -- Both steps let the tree grow, and the first result lasts while it does.
  refine (conveys.ends tree).mono fun result middle held => ?_
  rw [ends_bind]
  refine (conveys'.ends middle).mono fun result' last further => ?_
  exact ⟨held.1.trans further.1,
    made result result' last (conveys.lasts result further.1.continues held.2) further.2⟩

end Conveys

variable {follow : Place → Reading SchemaId} {place : Place} {key : String} {value : Json}
variable {siblings : List (String × Json)} {tree : SchemaTree}

/-- What is found stays found. -/
theorem lasting_found {location : String} {id : SchemaId} :
    Lasting fun tree => tree.find? location = some id :=
  fun continues found => continues.find? found

/-- Clauses stay what their members say. -/
theorem lasting_clauses {members : List (String × Json)} {clauses : List Clause} :
    Lasting fun tree => List.Forall₂ (Clause.Spells documents tree place siblings) members clauses :=
  fun continues => Clause.later_spells fun _ _ found => continues.find? found

/-- The schemas of members stay at their places. -/
theorem lasting_entries {members : List (String × Json)} {found : List (String × SchemaId)} :
    Lasting fun tree => List.Forall₂ (fun member entry =>
      entry.1 = member.1 ∧ tree.find? (place.member member.1).location = some entry.2) members found :=
  fun continues each => each.imp fun _ _ held => ⟨held.1, continues.find? held.2⟩

/-- The schemas of items stay at their places. -/
theorem lasting_ids {indices : List Nat} {ids : List SchemaId} :
    Lasting fun tree => List.Forall₂ (fun index id =>
      tree.find? (place.item index).location = some id) indices ids :=
  fun continues each => each.imp fun _ _ found => continues.find? found

/-- What was recorded for a member stays what it says. -/
theorem lasting_records {found : Option Keyword} :
    Lasting fun tree => Records documents tree place siblings key value found := by
  intro first last continues records
  cases found with
  | none => exact records
  | some keyword => exact ⟨records.1, records.2.later fun _ _ found => continues.find? found⟩

/-- A schema that is known is not read again; else it joins, its parts are read, and it is completed
with what they say. -/
theorem conveys_object {parts : Reading α} {body : α → SchemaBody}
    (held : documents.valueAt? place = some value)
    (conveys : Conveys documents
      (fun result last => (body result).Spells documents last place value) parts) :
    Conveys documents (fun id last => last.find? place.location = some id) (do
      if let some id ← known? place then return id
      let id ← reserve place
      let found ← parts
      modify fun tree => tree.complete id (body found)
      return id) := by
  refine ⟨fun tree => Closes.ends ?_, fun _ => lasting_found⟩
  -- A place that is known is left alone.
  rw [closes_bind, closes_known?]
  cases fresh : tree.find? place.location with
  | some id => exact ⟨.refl tree, fresh⟩
  | none =>
    dsimp only
    rw [closes_bind, closes_reserve, closes_bind]
    -- The schema is completed with what its parts say in the tree that they have left behind.
    refine (conveys.ends (tree.reserve place.location).2).mono fun found last held' => ?_
    exact held'.1.around fresh held held'.2

/-- A keyword around one schema says what its member says. -/
theorem records_schema {made : SchemaId → Keyword} {id : SchemaId}
    (nested : nesting key value = .schema made)
    (found : tree.find? (place.member key).location = some id) :
    Records documents tree place siblings key value (some (made id)) := by
  unfold nesting at nested
  split at nested
  all_goals cases nested
  all_goals exact ⟨rfl, rfl, found⟩

/-- A keyword around a list of schemas says what its member says. -/
theorem records_schemas {made : List SchemaId → Keyword} {ids : List SchemaId}
    (nested : nesting key value = .schemas made)
    (found : tree.Enumerates (place.member key) value ids) :
    Records documents tree place siblings key value (some (made ids)) := by
  unfold nesting at nested
  split at nested
  all_goals cases nested
  all_goals exact ⟨rfl, rfl, found⟩

/-- A keyword around a table of schemas says what its member says. -/
theorem records_table {made : List (String × SchemaId) → Keyword}
    {entries : List (String × SchemaId)} (nested : nesting key value = .table made)
    (found : tree.Tabulates (place.member key) value entries) :
    Records documents tree place siblings key value (some (made entries)) := by
  unfold nesting at nested
  split at nested
  all_goals cases nested
  all_goals exact ⟨rfl, rfl, found⟩

/-- A member that is not recognised leaves no clause behind; any other leaves the clause that says what it
says. -/
theorem spells_members {rest : List (String × Json)} {found : Option Keyword} {found' : List Clause}
    (records : Records documents tree place siblings key value found)
    (each : List.Forall₂ (Clause.Spells documents tree place siblings)
      (rest.filter fun member => isRecognised member.1 member.2) found') :
    List.Forall₂ (Clause.Spells documents tree place siblings)
      (((key, value) :: rest).filter fun member => isRecognised member.1 member.2)
      ((found.map (Clause.mk (place.member key).location)).toList ++ found') := by
  cases found with
  | none =>
    -- What is not recognised is filtered out, and the read clauses are those of the rest.
    have unrecognised : isRecognised key value = false := records
    rw [List.filter_cons_of_neg (by simp [unrecognised])]
    exact each
  | some keyword =>
    have recognised : isRecognised key value = true := records.1
    rw [List.filter_cons_of_pos (by simp [recognised])]
    exact .cons ⟨rfl, records.2⟩ each

/-- A reference says which place it leads to. -/
theorem conveys_reference
    (follows : ∀ target,
      Conveys documents (fun id last => last.find? target.location = some id) (follow target)) :
    Conveys documents
      (fun found last => Records documents last place siblings "$ref" value (some found))
      (reference documents follow (place.member "$ref") value) := by
  unfold reference
  cases value with
  | string text =>
    -- A reference that leads nowhere is refused, and so is one that is no text.
    cases found : documents.resolve? (place.member "$ref").document text with
    | none =>
      simp only [found]
      exact .throw fun _ => lasting_records
    | some target =>
      simp only [found]
      -- The place that it leads to has the document that is named and the fragment as its pointer.
      obtain ⟨named, pointer⟩ := Documents.of_resolve? found
      refine (follows target).map (fun _ => lasting_records) fun id tree held => ?_
      refine ⟨rfl, rfl, rfl, target.document, named, ?_⟩
      rw [pointer]
      exact held
  | _ => exact .throw fun _ => lasting_records

/-! The parts of a document, each read as the documents have it, if that which is followed is. -/

/-- A reading of the schema at a place finds it there. -/
abbrev ConveysSchema (documents : Documents) (follow : Place → Reading SchemaId) (place : Place)
    (value : Json) : Prop :=
  Conveys documents (fun id last => last.find? place.location = some id)
    (schema documents follow place value)

/-- A reading of a member records what it says. -/
abbrev ConveysKeyword (documents : Documents) (follow : Place → Reading SchemaId) (place : Place)
    (siblings : List (String × Json)) (key : String) (value : Json) : Prop :=
  Conveys documents (fun found last => Records documents last place siblings key value found)
    (keyword documents follow place siblings key value)

/-- A reading of members leaves a clause for each of them that is recognised. -/
abbrev ConveysClauses (documents : Documents) (follow : Place → Reading SchemaId) (place : Place)
    (siblings members : List (String × Json)) : Prop :=
  Conveys documents
    (fun found last => List.Forall₂ (Clause.Spells documents last place siblings)
      (members.filter fun member => isRecognised member.1 member.2) found)
    (clauses documents follow place siblings members)

/-- A reading of named schemas finds each of them at the place of its name. -/
abbrev ConveysEntries (documents : Documents) (follow : Place → Reading SchemaId) (place : Place)
    (members : List (String × Json)) : Prop :=
  Conveys documents
    (fun found last => List.Forall₂ (fun member entry =>
      entry.1 = member.1 ∧ last.find? (place.member member.1).location = some entry.2) members found)
    (entries documents follow place members)

/-- A reading of listed schemas finds each of them at the place of its index. -/
abbrev ConveysBranches (documents : Documents) (follow : Place → Reading SchemaId) (place : Place)
    (index : Nat) (items : List Json) : Prop :=
  Conveys documents
    (fun found last => List.Forall₂ (fun index id => last.find? (place.item index).location = some id)
      (List.range' index items.length) found)
    (branches documents follow place index items)

/-- A boolean schema is read without anything inside. -/
theorem conveys_boolean {held : Bool} (here : documents.valueAt? place = some (.bool held)) :
    ConveysSchema documents follow place (.bool held) := by
  rw [ConveysSchema, schema]
  have none : Conveys documents
      (fun _ last => (SchemaBody.boolean held).Spells documents last place (.bool held))
      (pure () : Reading Unit) := .pure (fun _ _ _ _ _ => .boolean held) fun _ => .boolean held
  exact @conveys_object _ _ place _ _ (fun _ => .boolean held) here none

/-- An object is read by its members. -/
theorem conveys_members {members : List (String × Json)}
    (here : documents.valueAt? place = some (.object members))
    (inner : ConveysClauses documents follow place members members) :
    ConveysSchema documents follow place (.object members) := by
  rw [ConveysSchema, schema]
  refine conveys_object here (inner.imp (fun found first last continues spells => ?_) fun found _ each =>
    .object members found each)
  exact spells.later fun _ _ found => continues.find? found

/-- What is no schema is only found if it was read as one before. -/
theorem conveys_other (notBool : ∀ held, value ≠ .bool held) (notObject : ∀ members, value ≠ .object members) :
    ConveysSchema documents follow place value := by
  rw [ConveysSchema, schema]
  · refine ⟨fun tree => Closes.ends ?_, fun _ => lasting_found⟩
    rw [closes_bind, closes_known?]
    cases found : tree.find? place.location with
    | none => trivial
    | some id => exact ⟨.refl tree, found⟩
  all_goals assumption

/-- The first of some members leaves its clause in front of those of the others. -/
theorem conveys_clauses {rest : List (String × Json)}
    (first : ConveysKeyword documents follow place siblings key value)
    (others : ConveysClauses documents follow place siblings rest) :
    ConveysClauses documents follow place siblings ((key, value) :: rest) := by
  rw [ConveysClauses, clauses_cons]
  exact first.map₂ others (fun _ => lasting_clauses) fun _ _ _ => spells_members

/-- A member with one schema in it is recorded with that. -/
theorem conveys_nested {made : SchemaId → Keyword} (nested : nesting key value = .schema made)
    (inner : ConveysSchema documents follow (place.member key) value) :
    ConveysKeyword documents follow place siblings key value := by
  rw [ConveysKeyword, keyword_of_schema nested]
  exact inner.map (fun _ => lasting_records) fun _ _ found => records_schema nested found

/-- A member with a list of schemas in it is recorded with these. -/
theorem conveys_branches {items : List Json} {made : List SchemaId → Keyword}
    (nested : nesting key (.array items) = .schemas made)
    (inner : ConveysBranches documents follow (place.member key) 0 items) :
    ConveysKeyword documents follow place siblings key (.array items) := by
  rw [ConveysKeyword, keyword_of_schemas nested]
  refine inner.map (fun _ => lasting_records) fun ids tree found => records_schemas nested ?_
  exact ⟨items, rfl, List.range_eq_range' ▸ found⟩

/-- A member with named schemas in it is recorded with these. -/
theorem conveys_table {entries : List (String × Json)} {made : List (String × SchemaId) → Keyword}
    (nested : nesting key (.object entries) = .table made)
    (inner : ConveysEntries documents follow (place.member key) entries) :
    ConveysKeyword documents follow place siblings key (.object entries) := by
  rw [ConveysKeyword, keyword_of_table nested]
  refine inner.map (fun _ => lasting_records) fun entries tree found => records_table nested ?_
  exact ⟨_, rfl, found⟩

/-- A member without schemas in it is recorded as it stands, and the tree stays as it is. -/
theorem conveys_plain (plain : nesting key value = .none) (direct : key ≠ "$ref") :
    ConveysKeyword documents follow place siblings key value := by
  rw [ConveysKeyword, keyword_of_plain plain direct]
  refine ⟨fun tree => Closes.ends ?_, fun _ => lasting_records⟩
  rw [closes_liftExcept]
  cases read : plainKeyword (place.member key).location siblings key value with
  | error _ => trivial
  | ok found => exact ⟨.refl tree, records_plainKeyword plain direct read⟩

/-- Named schemas are read one after the other. -/
theorem conveys_entries {name : String} {rest : List (String × Json)}
    (first : ConveysSchema documents follow (place.member name) value)
    (others : ConveysEntries documents follow place rest) :
    ConveysEntries documents follow place ((name, value) :: rest) := by
  rw [ConveysEntries, entries]
  exact first.map₂ others (fun _ => lasting_entries) fun _ _ _ found each => .cons ⟨rfl, found⟩ each

/-- Listed schemas are read one after the other. -/
theorem conveys_items {index : Nat} {item : Json} {rest : List Json}
    (first : ConveysSchema documents follow (place.item index) item)
    (others : ConveysBranches documents follow place (index + 1) rest) :
    ConveysBranches documents follow place index (item :: rest) := by
  rw [ConveysBranches, branches]
  exact first.map₂ others (fun _ => lasting_ids) fun _ _ _ found each => .cons found each

/-- Whatever is read says what the documents say, if that which is followed does. -/
theorem conveys_schema (proper : documents.Proper)
    (follows : ∀ target,
      Conveys documents (fun id last => last.find? target.location = some id) (follow target)) :
    (∀ place value, documents.valueAt? place = some value →
      ConveysSchema documents follow place value) ∧
    ∀ place siblings members,
      (∀ key value, (key, value) ∈ members → documents.valueAt? (place.member key) = some value) →
      ConveysClauses documents follow place siblings members := by
  -- Each part is read as it stands at its place, which is below the place of what it is a part of.
  refine parts_induction
    (fun place siblings key value => documents.valueAt? (place.member key) = some value →
      ConveysKeyword documents follow place siblings key value)
    (fun place members =>
      (∀ name value, (name, value) ∈ members → documents.valueAt? (place.member name) = some value) →
      ConveysEntries documents follow place members)
    (fun place index items =>
      (∀ offset item, items[offset]? = some item →
        documents.valueAt? (place.item (index + offset)) = some item) →
      ConveysBranches documents follow place index items)
    ?boolean ?object ?other ?noMembers ?members ?invalid ?nested ?branches ?table ?reference ?plain
    ?noEntries ?entries ?noItems ?items
  case boolean => exact fun _ _ here => conveys_boolean here
  case object =>
    intro place members inner here
    exact conveys_members here (inner fun key value member => proper.valueAt?_member here member)
  case other => exact fun _ _ notBool notObject _ => conveys_other notBool notObject
  case noMembers => exact fun _ _ _ => .pure (fun _ => lasting_clauses) fun _ => .nil
  case members =>
    intro place siblings key value rest first others parts
    exact conveys_clauses (first (parts key value List.mem_cons_self))
      (others fun key value member => parts key value (List.mem_cons_of_mem _ member))
  case invalid =>
    intro place siblings key value problem nested _
    rw [ConveysKeyword, keyword_of_invalid nested]
    exact .throw fun _ => lasting_records
  case nested => exact fun _ _ _ _ _ nested inner here => conveys_nested nested (inner here)
  case branches =>
    intro place siblings key items made nested inner here
    refine conveys_branches nested (inner fun offset item found => ?_)
    rw [Nat.zero_add]
    exact Documents.valueAt?_item here found
  case table =>
    intro place siblings key entries made nested inner here
    exact conveys_table nested (inner fun name value member => proper.valueAt?_member here member)
  case reference =>
    intro place siblings value _
    rw [ConveysKeyword, keyword_reference, ← bind_pure_comp]
    exact (conveys_reference follows).map (fun _ => lasting_records) fun _ _ held => held
  case plain => exact fun _ _ _ _ plain direct _ => conveys_plain plain direct
  case noEntries => exact fun _ _ => .pure (fun _ => lasting_entries) fun _ => .nil
  case entries =>
    intro place name value rest first others parts
    exact conveys_entries (first (parts name value List.mem_cons_self))
      (others fun name value member => parts name value (List.mem_cons_of_mem _ member))
  -- No item, no identifier.
  case noItems => exact fun _ _ _ => .pure (fun _ => lasting_ids) fun _ => .nil
  case items =>
    intro place index item rest first others parts
    -- Counted from the second item, every offset is smaller by one.
    refine conveys_items (first (parts 0 item rfl)) (others fun offset item found => ?_)
    rw [Nat.add_assoc, Nat.add_comm 1]
    exact parts (offset + 1) item found

/-- Whatever is followed says what the documents say. -/
theorem conveys_follow (proper : documents.Proper) (pending : List Place) (place : Place) :
    Conveys documents (fun id last => last.find? place.location = some id)
      (Reading.follow documents pending place) := by
  -- Inside, fewer places are pending, so the induction is on their number.
  induction size : pending.length using Nat.strong_induction_on generalizing pending place with
  | _ size ih =>
    subst size
    refine ⟨fun tree => ?_, fun _ => lasting_found⟩
    unfold Ends
    -- A place that is known is not followed again.
    cases fresh : tree.find? place.location with
    | some id =>
      rw [follow_of_known fresh]
      exact ⟨.refl tree, fresh⟩
    | none =>
      rw [follow_of_fresh fresh]
      cases here : documents.valueAt? place with
      | none => trivial
      | some value =>
        -- Only a pending place is read, and it is pending no more while its parts are.
        by_cases waiting : place ∈ pending
        · simp only [if_pos waiting]
          have inner := (conveys_schema proper fun target =>
            ih _ (length_erase_lt waiting) (pending.erase place) target rfl).1 place value here
          exact inner.ends tree
        · simp only [if_neg waiting]

end Reading

namespace SchemaTree

/-- A tree that says what documents say. Every schema is the one that is found at its own place, which
lies in one of the documents, and it says what this document says there. References to one place share
one schema. -/
structure Transcribes (sources : List SourceDocument) (tree : SchemaTree) : Prop where
  indexed : ∀ id : SchemaId, id.index < tree.schemas.size → tree.find? (tree.location id) = some id
  placed : ∀ location id, tree.find? location = some id → tree.location id = location ∧
    ∃ source ∈ sources, ∃ pointer, location = source.ownUri ++ "#" ++ pointer
  spells : ∀ source ∈ sources, ∀ pointer id,
    tree.find? (source.ownUri ++ "#" ++ pointer) = some id →
    ∃ value, Pointer.select source.content pointer = some value ∧
      (tree.schema id).body.Spells (registerDocuments sources).2 tree ⟨source.ownUri, pointer⟩ value
  shares : ∀ source ∈ sources, ∀ source' ∈ sources, ∀ pointer pointer' id id',
    tree.find? (source.ownUri ++ "#" ++ pointer) = some id →
    tree.find? (source'.ownUri ++ "#" ++ pointer') = some id' →
    ∀ clause ∈ (tree.schema id).clauses, ∀ clause' ∈ (tree.schema id').clauses,
    ∀ text target text' target', clause.keyword = .reference text target →
    clause'.keyword = .reference text' target' →
    (registerDocuments sources).2.named? source.ownUri (documentPart text) =
      (registerDocuments sources).2.named? source'.ownUri (documentPart text') →
    fragmentPart text = fragmentPart text' → target = target'

end SchemaTree

namespace Documents

open Reading

variable {documents : Documents} {sources : List SourceDocument} {tree : SchemaTree} {uri : String}

/-- A document is named by its own URI, and else by the URI that it was handed in under; of several
documents with this one the last is meant. -/
theorem canonical?_registerDocuments :
    (registerDocuments sources).2.canonical? uri =
      if (latest? sources uri).isSome then some uri
      else (sources.reverse.find? fun source => source.uri = uri).map (·.ownUri) := by
  rw [canonical?, Keyed.contains, find?_registerDocuments]
  by_cases own : (latest? sources uri).isSome = true
  · rw [if_pos own, if_pos own]
  · rw [if_neg own, if_neg own]
    -- Documents are registered from the first to the last, so the induction is from the end.
    induction sources using List.reverseRecOn with
    | nil => rfl
    | append_singleton sources source ih =>
      have apart : source.ownUri ≠ uri := by
        rintro rfl
        exact own (isSome_latest? (by simp))
      have ih := ih fun earlier => own (by
        rw [latest?, Option.isSome_map, List.find?_isSome] at earlier ⊢
        obtain ⟨other, member, same⟩ := earlier
        exact ⟨other, by simp [List.mem_reverse.mp member], same⟩)
      -- One more document is registered under its own URI, and it may add a name for it.
      rw [registerDocuments_concat, List.reverse_append]
      show (if ownUri source.uri source.content == source.uri then _ else _ : Keyed String).find? uri = _
      by_cases same : source.uri = uri
      · subst same
        rw [if_neg (by simpa [SourceDocument.ownUri] using apart), Keyed.find?_insert]
        simp [SourceDocument.ownUri]
      · simp only [List.reverse_singleton, List.singleton_append, List.find?_cons, same, decide_false]
        split
        · exact ih
        · rw [Keyed.find?_insert, if_neg (Ne.symm same)]
          exact ih

/-- A reference that a schema states leads to the schema at the place that it names. -/
theorem find?_of_spells {place : Place} {value : Json} {schema : Schema} {clause : Clause}
    {text : String} {target : SchemaId} (spells : schema.body.Spells documents tree place value)
    (stated : clause ∈ schema.clauses) (refers : clause.keyword = .reference text target) :
    ∃ document, documents.named? place.document (documentPart text) = some document ∧
      tree.find? (Place.location ⟨document, fragmentPart text⟩) = some target := by
  obtain ⟨location, body⟩ := schema
  -- A boolean schema has no clauses at all.
  cases spells with
  | boolean held => exact absurd stated List.not_mem_nil
  | object members clauses each =>
    replace stated : clause ∈ clauses := stated
    generalize members.filter _ = recognised at each
    -- The clause stands beside one of the recognised members.
    induction each with
    | nil => exact absurd stated List.not_mem_nil
    | @cons member first _ _ here _ ih =>
      rcases List.mem_cons.mp stated with rfl | later
      · -- The clause for the reference was recorded with the place that it leads to.
        obtain ⟨-, here⟩ := here
        rw [refers] at here
        exact here.2.2
      · exact ih later

/-- Documents are read one after the other, and what one of them conveys the next ones keep. -/
theorem ends_roots (proper : documents.Proper) {uris : List String} {tree : SchemaTree}
    (explored : Explored documents (fun place => '#' ∉ place.document.toList) tree) :
    Ends (uris.mapM documents.root) tree
      (fun ids last => Faithful documents tree last ∧
        Explored documents (fun place => '#' ∉ place.document.toList) last ∧
        List.Forall₂ (fun uri id => ∃ document, documents.canonical? uri = some document ∧
          last.find? (Place.location ⟨document, ""⟩) = some id) uris ids)
      (fun _ => True) := by
  induction uris generalizing tree with
  | nil => exact ⟨.refl tree, explored, .nil⟩
  | cons uri others ih =>
    rw [List.mapM_cons, ends_bind]
    -- A URI that names no document ends the reading.
    cases named : documents.canonical? uri with
    | none =>
      rw [root, named]
      trivial
    | some document =>
      rw [root_eq named]
      have plain : '#' ∉ document.toList := proper.unhashed uri document named
      -- The search says what is explored then, and the conveyance what the tree says of it.
      have reads : SearchesFrom documents _ tree (documents.read ⟨document, ""⟩) _ :=
        searchesFrom_read proper proper.territory plain explored
      have searches := reads.imp (fun _ _ held => held) fun _ _ _ => trivial
      have conveys := (conveys_follow proper (⟨document, ""⟩ :: documents.targets) ⟨document, ""⟩).ends tree
      refine (searches.ends.and conveys).imp (fun id middle held => ?_) fun _ _ => trivial
      obtain ⟨⟨progress, -⟩, faithful, found⟩ := held
      rw [ends_bind]
      refine (ih progress.explored).mono fun ids last held => ?_
      obtain ⟨further, explored, each⟩ := held
      -- Where a root was found it is found in all later trees.
      refine ⟨faithful.trans further, explored, .cons ⟨document, named, ?_⟩ each⟩
      exact further.continues.find? found

/-- A place with a value lies in one of the documents. -/
theorem exists_source_of_valueAt? {place : Place} {value : Json}
    (held : (registerDocuments sources).2.valueAt? place = some value) :
    ∃ source ∈ sources, source.ownUri = place.document ∧
      Pointer.select source.content place.pointer = some value := by
  obtain ⟨content, here, selected⟩ := Option.bind_eq_some_iff.mp held
  rw [find?_registerDocuments] at here
  obtain ⟨source, found, rfl⟩ := Option.map_eq_some_iff.mp here
  exact ⟨source, List.mem_reverse.mp (List.mem_of_find?_eq_some found),
    by simpa using List.find?_some found, selected⟩

/-- The schema that is found at a place in a document says what this document says there. -/
theorem spells_of_renders (handedIn : HandedIn sources) (apart : (sources.map (·.ownUri)).Nodup)
    {source : SourceDocument} (member : source ∈ sources) {pointer : String} {id : SchemaId}
    (renders : tree.Renders (registerDocuments sources).2 id)
    (here : tree.location id = source.ownUri ++ "#" ++ pointer) :
    ∃ value, Pointer.select source.content pointer = some value ∧
      (tree.schema id).body.Spells (registerDocuments sources).2 tree ⟨source.ownUri, pointer⟩ value := by
  obtain ⟨place, value, there, held, spells⟩ := renders
  obtain ⟨other, listed, same, selected⟩ := exists_source_of_valueAt? held
  -- Neither URI has a `#`, so the location tells the document from the pointer.
  have place_eq : place = ⟨source.ownUri, pointer⟩ :=
    place_inj (same ▸ (handedIn other listed).1) (handedIn source member).1 (there.symm.trans here)
  subst place_eq
  -- Each document has an own URI, so that there is one to select from.
  rw [List.inj_on_of_nodup_map apart listed member same] at selected
  exact ⟨value, selected, spells⟩

/-- Whatever documents are read one after the other, the tree says what they say: if each document has
its own URI and none of these has a `#` in it, each schema stands at its own place, holds what its
document says there, and refers to what is named. -/
theorem transcribes_roots (handedIn : HandedIn sources) (apart : (sources.map (·.ownUri)).Nodup)
    {uris : List String} {ids : List SchemaId}
    (ran : (uris.mapM (registerDocuments sources).2.root).run {} = .ok ids tree) :
    tree.Transcribes sources ∧
      List.Forall₂ (fun uri id => ∃ document,
        (registerDocuments sources).2.canonical? uri = some document ∧
          tree.find? (Place.location ⟨document, ""⟩) = some id) uris ids := by
  -- The tree starts empty, so what is faithful to it covers all schemas that are there in the end.
  obtain ⟨faithful, explored, roots⟩ :=
    (ends_roots (proper_registerDocuments handedIn) .empty).of_ok ran
  have renders (id : SchemaId) (inside : id.index < tree.schemas.size) :
      tree.Renders (registerDocuments sources).2 id := faithful.renders id (Nat.zero_le _) inside
  have spells {source : SourceDocument} (member : source ∈ sources) {pointer : String} {id : SchemaId}
      (found : tree.find? (source.ownUri ++ "#" ++ pointer) = some id) :=
    spells_of_renders handedIn apart member (renders id (SchemaTree.find?_eq_some.mp found).1)
      (SchemaTree.find?_eq_some.mp found).2.1
  refine ⟨⟨fun id inside => ?indexed, fun location id found => ?placed,
    fun source member pointer id => spells member, ?shares⟩, roots⟩
  case indexed =>
    -- Every schema is found at its location, and no two share one.
    cases found : tree.find? (tree.location id) with
    | none => exact absurd rfl (SchemaTree.find?_eq_none.mp found id inside)
    | some other =>
      obtain ⟨inside', same, -⟩ := SchemaTree.find?_eq_some.mp found
      rw [explored.apart other id inside' inside same]
  case placed =>
    obtain ⟨inside, here, -⟩ := SchemaTree.find?_eq_some.mp found
    -- The schema renders a value of some document, and that one is named in the location.
    obtain ⟨place, value, there, held, -⟩ := renders id inside
    obtain ⟨source, member, same, -⟩ := exists_source_of_valueAt? held
    refine ⟨here, source, member, place.pointer, ?_⟩
    rw [same, ← here, there, Place.location]
  case shares =>
    intro source member source' member' pointer pointer' id id' found found' clause stated clause'
      stated' text target text' target' refers refers' document fragment
    -- Each of the two clauses leads where its own document says.
    obtain ⟨value, -, spelled⟩ := spells member found
    obtain ⟨value', -, spelled'⟩ := spells member' found'
    obtain ⟨named, here, there⟩ := find?_of_spells spelled stated refers
    obtain ⟨named', here', there'⟩ := find?_of_spells spelled' stated' refers'
    -- Both references name one document and one place in it.
    have same : named = named' := Option.some.inj ((here.symm.trans document).trans here')
    rw [same, fragment] at there
    exact Option.some.inj (there.symm.trans there')

/-- Two documents that refer to each other: to the second one by its `$id`, to a member of it with a
slash in its name. -/
def mutualSources : List SourceDocument :=
  [{ uri := "urn:a"
     content := .object [("items", .object [("$ref", .string "urn:b#/definitions/a~1b")])] },
    { uri := "file:///b.json"
      content := .object [("$id", .string "urn:b"), ("definitions", .object [("a/b", .object [
        ("type", .string "string"), ("not", .object [("$ref", .string "urn:a#/items")])])])] }]

/-- Read one after the other, they are transcribed. -/
theorem transcribes_mutualSources :
    HandedIn mutualSources ∧ (mutualSources.map (·.ownUri)).Nodup ∧
      ∃ ids tree, (["urn:a", "file:///b.json"].mapM (registerDocuments mutualSources).2.root).run {} =
        .ok ids tree ∧ tree.Transcribes mutualSources := by
  have handedIn : HandedIn mutualSources := by
    unfold HandedIn
    decide +kernel
  have apart : (mutualSources.map (·.ownUri)).Nodup := by decide +kernel
  -- That the documents can be read is computed, and the theorem says the rest.
  have reads : (match (["urn:a", "file:///b.json"].mapM
      (registerDocuments mutualSources).2.root).run {} with
    | .ok _ _ => true
    | .error _ _ => false) = true := by decide +kernel
  refine ⟨handedIn, apart, ?_⟩
  split at reads
  · rename_i ids tree ran
    exact ⟨ids, tree, ran, (transcribes_roots handedIn apart ran).1⟩
  · cases reads

end Documents

end SchemaClasses
