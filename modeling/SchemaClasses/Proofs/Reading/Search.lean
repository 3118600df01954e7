import SchemaClasses.Proofs.Reading.Recursion

/-! Reading as a search: every schema that joins a tree is at a place that schemas lead to, and once it
is complete, it is well-formed, it holds the value of its place, and all that it leads to is known. So a
document is read exactly if every place that schemas lead to from its root is well-formed, and nothing else
is looked at. -/

namespace SchemaClasses

/-- The value that a schema was read from. -/
def SchemaBody.content : SchemaBody → Json
  | .boolean value => .bool value
  | .object source _ => source

namespace SchemaTree

variable {tree : SchemaTree} {place : Place} {location other : String}

/-- Whether a tree has a schema at a place. -/
def Knows (tree : SchemaTree) (place : Place) : Prop := (tree.find? place.location).isSome = true

/-- What is found in a tree with a new schema was found before, or is the new one. -/
theorem find?_of_reserve (known : ((tree.reserve location).2.find? other).isSome = true) :
    (tree.find? other).isSome = true ∨ other = location := by
  obtain ⟨id, found⟩ := Option.isSome_iff_exists.mp known
  obtain ⟨inside, here, -⟩ := find?_eq_some.mp found
  rw [size_reserve] at inside
  rw [SchemaTree.location, schema_reserve] at here
  -- A location is that of the new schema or of an old one, according to the index.
  split at here
  · exact .inr here.symm
  · -- An index below the old size was found before, because `find?` misses no schema of the tree.
    left
    by_contra unknown
    exact find?_eq_none.mp (Option.not_isSome_iff_eq_none.mp unknown) id (by omega) here

/-- At first nothing is known. -/
theorem not_knows_empty : ¬SchemaTree.Knows {} place := by
  have none : SchemaTree.find? {} place.location = none :=
    find?_eq_none.mpr fun id inside => absurd inside (Nat.not_lt_zero _)
  simp [Knows, none]

/-- What is known stays known. -/
theorem Continues.knows {first last : SchemaTree} (continues : first.Continues last)
    (known : first.Knows place) : last.Knows place := by
  obtain ⟨id, found⟩ := Option.isSome_iff_exists.mp known
  exact Option.isSome_iff_exists.mpr ⟨id, continues.find? found⟩

end SchemaTree

section

variable {documents : Documents} {within : Place → Prop}
variable {tree first middle last : SchemaTree} {place : Place} {value : Json}

/-- A tree that was read within a set of places: at most one schema at each location, which is that of
a place with a value. -/
structure Explored (documents : Documents) (within : Place → Prop) (tree : SchemaTree) : Prop where
  apart : ∀ a b : SchemaId, a.index < tree.schemas.size → b.index < tree.schemas.size →
    tree.location a = tree.location b → a = b
  place : ∀ id : SchemaId, id.index < tree.schemas.size →
    ∃ place, within place ∧ (documents.valueAt? place).isSome = true ∧
      tree.location id = place.location

/-- A place whose schema is complete in a tree. -/
structure Settled (documents : Documents) (tree : SchemaTree) (place : Place) : Prop where
  wellFormed : documents.isWellFormed place = true
  content : ∃ id, tree.find? place.location = some id ∧
    documents.valueAt? place = some (tree.schema id).body.content
  onward : ∀ next ∈ documents.onward place, tree.Knows next

/-- What reading within a set of places has done to a tree: schemas have joined it, and each of them
is complete. -/
structure Progress (documents : Documents) (within : Place → Prop) (first last : SchemaTree) :
    Prop where
  continues : first.Continues last
  explored : Explored documents within last
  settled : ∀ place, within place → last.Knows place →
    first.Knows place ∨ Settled documents last place

/-- Whether something in a set of places is not well-formed. -/
def Refuses (documents : Documents) (within : Place → Prop) : Prop :=
  ∃ place, within place ∧ documents.isWellFormed place = false

theorem Explored.empty : Explored documents within {} :=
  ⟨fun _ _ inside => absurd inside (Nat.not_lt_zero _), fun _ inside => absurd inside (Nat.not_lt_zero _)⟩

/-- A schema joins at a place where none is. -/
theorem Explored.reserve (explored : Explored documents within tree) (inside : within place)
    (value : (documents.valueAt? place).isSome = true)
    (fresh : tree.find? place.location = none) :
    Explored documents within (tree.reserve place.location).2 := by
  have old := SchemaTree.find?_eq_none.mp fresh
  have location (id : SchemaId) : (tree.reserve place.location).2.location id =
      if id.index = tree.schemas.size then place.location else tree.location id := by
    rw [SchemaTree.location, SchemaTree.schema_reserve]
    split <;> rfl
  refine ⟨fun a b insideA insideB same => ?_, fun id inside' => ?_⟩
  · -- No two schemas share a location: the new one has a location that no old one has.
    rw [SchemaTree.size_reserve] at insideA insideB
    rw [location, location] at same
    -- Each of the two is the new schema or an old one.
    split_ifs at same with newA newB newB
    · exact SchemaId.ext (newA.trans newB.symm)
    · exact absurd same.symm (old b (by omega))
    · exact absurd same (old a (by omega))
    · exact explored.apart a b (by omega) (by omega) same
  · -- Every schema stands at a place: the new one at the given place, an old one as before.
    rw [SchemaTree.size_reserve] at inside'
    rw [location]
    split_ifs with new
    · exact ⟨place, inside, value, rfl⟩
    · exact explored.place id (by omega)

theorem Explored.complete {id : SchemaId} {body : SchemaBody}
    (explored : Explored documents within tree) : Explored documents within (tree.complete id body) := by
  refine ⟨fun a b insideA insideB same => ?_, fun other inside => ?_⟩
  · rw [SchemaTree.size_complete] at insideA insideB
    rw [SchemaTree.location_complete, SchemaTree.location_complete] at same
    exact explored.apart a b insideA insideB same
  · rw [SchemaTree.size_complete] at inside
    rw [SchemaTree.location_complete]
    exact explored.place other inside

/-- A place that is known has a value. -/
theorem Explored.valueAt? (explored : Explored documents within tree)
    (territory : documents.Territory within) (inside : within place) (known : tree.Knows place) :
    (documents.valueAt? place).isSome = true := by
  obtain ⟨id, found⟩ := Option.isSome_iff_exists.mp known
  obtain ⟨inside', here, -⟩ := SchemaTree.find?_eq_some.mp found
  obtain ⟨other, within', value, there⟩ := explored.place id inside'
  rw [territory.apart inside within' (here.symm.trans there)]
  exact value

/-- What is complete stays complete while schemas join. -/
theorem Settled.continues (settled : Settled documents first place)
    (continues : first.Continues last) : Settled documents last place := by
  obtain ⟨id, found, content⟩ := settled.content
  refine ⟨settled.wellFormed, ⟨id, continues.find? found, ?_⟩,
    fun next leads => continues.knows (settled.onward next leads)⟩
  rw [continues.schema id (SchemaTree.find?_eq_some.mp found).1]
  exact content

theorem Progress.refl (explored : Explored documents within tree) :
    Progress documents within tree tree :=
  ⟨.refl tree, explored, fun _ _ known => .inl known⟩

/-- What was complete on the way is complete at the end. -/
theorem Progress.trans (progress : Progress documents within first middle)
    (further : Progress documents within middle last) : Progress documents within first last where
  continues := progress.continues.trans further.continues
  explored := further.explored
  settled place inside known := by
    rcases further.settled place inside known with earlier | settled
    · exact (progress.settled place inside earlier).imp_right fun settled =>
        settled.continues further.continues
    · exact .inr settled

/-- The schema of a place joins, all that it leads to is read, and it is completed. -/
theorem Progress.around {body : SchemaBody} (territory : documents.Territory within)
    (fresh : tree.find? place.location = none)
    (progress : Progress documents within (tree.reserve place.location).2 last)
    (inside : within place) (wellFormed : documents.isWellFormed place = true)
    (content : documents.valueAt? place = some body.content)
    (onward : ∀ next ∈ documents.onward place, last.Knows next) :
    Progress documents within tree (last.complete ⟨tree.schemas.size⟩ body) ∧
      (last.complete ⟨tree.schemas.size⟩ body).find? place.location = some ⟨tree.schemas.size⟩ := by
  -- The schema that was reserved is still the one that is found there after all that was read
  -- since.
  have found := progress.continues.find? (SchemaTree.find?_reserve fresh)
  have joined : tree.schemas.size < last.schemas.size := by
    have := progress.continues.size
    rw [SchemaTree.size_reserve] at this
    omega
  -- Completing a schema moves no location, so what is known is not touched.
  have knows (next : Place) :
      (last.complete ⟨tree.schemas.size⟩ body).Knows next ↔ last.Knows next := by
    rw [SchemaTree.Knows, SchemaTree.Knows, SchemaTree.find?_complete]
  -- The place itself is complete now, because all that it leads to is known.
  have here : Settled documents (last.complete ⟨tree.schemas.size⟩ body) place := by
    refine ⟨wellFormed, ⟨_, (SchemaTree.find?_complete).trans found, ?_⟩,
      fun next leads => (knows next).mpr (onward next leads)⟩
    rw [SchemaTree.schema_complete, if_pos ⟨rfl, joined⟩]
    exact content
  refine ⟨⟨(SchemaTree.Continues.reserve.trans progress.continues).complete (Nat.le_refl _),
    progress.explored.complete, fun other inside' known => ?_⟩, (SchemaTree.find?_complete).trans found⟩
  -- Any other place that is known was known before the start, or is settled already.
  by_cases same : other = place
  · exact .inr (same ▸ here)
  · have apart : other.location ≠ place.location := fun same' =>
      same (territory.apart inside' inside same')
    rcases progress.settled other inside' ((knows other).mp known) with earlier | settled
    · exact .inl ((SchemaTree.find?_of_reserve earlier).resolve_right apart)
    · -- Another schema is not touched when this one is completed.
      obtain ⟨id, found', content'⟩ := settled.content
      have different : id ≠ ⟨tree.schemas.size⟩ := by
        rintro rfl
        exact apart ((SchemaTree.find?_eq_some.mp found').2.1.symm.trans
          (SchemaTree.find?_eq_some.mp found).2.1)
      refine .inr ⟨settled.wellFormed, ⟨id, (SchemaTree.find?_complete).trans found', ?_⟩,
        fun next leads => (knows next).mpr (settled.onward next leads)⟩
      rw [SchemaTree.schema_complete, if_neg fun both => different both.1]
      exact content'

end

namespace Reading

variable {α β : Type} {documents : Documents} {within : Place → Prop} {covered : SchemaTree → Prop}

/-- A run that reads from a tree within a set of places: it has done its part, or something there is
not well-formed. -/
abbrev SearchesFrom (documents : Documents) (within : Place → Prop) (tree : SchemaTree)
    (step : Reading α) (done : α → SchemaTree → Prop) : Prop :=
  Closes step tree
    (fun result last => Progress documents within tree last ∧ done result last)
    fun _ last => Explored documents within last ∧ Refuses documents within

/-- A run that reads within a set of places from all trees that cover what it may follow. -/
def Searches (documents : Documents) (within : Place → Prop) (covered : SchemaTree → Prop)
    (step : Reading α) (done : α → SchemaTree → Prop) : Prop :=
  ∀ tree, Explored documents within tree → covered tree → SearchesFrom documents within tree step done

/-- What later trees have if an earlier one has it. -/
def Lasting (holds : SchemaTree → Prop) : Prop :=
  ∀ {first last : SchemaTree}, first.Continues last → holds first → holds last

namespace Searches

variable {step : Reading α} {done done' : α → SchemaTree → Prop}

/-- A run may promise less than it does. -/
theorem imp (searches : Searches documents within covered step done)
    (weaker : ∀ result last, Explored documents within last → done result last → done' result last) :
    Searches documents within covered step done' := fun tree explored covers =>
  (searches tree explored covers).mono fun result last held =>
    ⟨held.1, weaker result last held.1.explored held.2⟩

theorem pure {result : α} (holds : ∀ tree, done result tree) :
    Searches documents within covered (Pure.pure result) done :=
  fun tree explored _ => ⟨.refl explored, holds tree⟩

/-- What is refused is not well-formed. -/
theorem throw {fault : Fault} (refuses : Refuses documents within) :
    Searches documents within covered (throw fault : Reading α) done :=
  fun _ explored _ => ⟨explored, refuses⟩

/-- One run after the other. -/
theorem bind {next : α → Reading β} {done' : β → SchemaTree → Prop} (lasting : Lasting covered)
    (searches : Searches documents within covered step done) (lasts : ∀ result, Lasting (done result))
    (searches' : ∀ result, Searches documents within covered (next result) done') :
    Searches documents within covered (step >>= next)
      (fun result' last => (∃ result, done result last) ∧ done' result' last) := by
  intro tree explored covers
  unfold SearchesFrom
  rw [closes_bind]
  -- What the first run has found lasts through the second one.
  refine (searches tree explored covers).mono fun result middle held => ?_
  obtain ⟨progress, held⟩ := held
  refine (searches' result middle progress.explored (lasting progress.continues covers)).mono
    fun result' last further => ?_
  exact ⟨progress.trans further.1, ⟨result, lasts result further.1.continues held⟩, further.2⟩

/-- What is made of a result does not undo what was done for it. -/
theorem map {make : α → β} (searches : Searches documents within covered step done) :
    Searches documents within covered (do return make (← step))
      fun _ last => ∃ result, done result last := by
  intro tree explored covers
  unfold SearchesFrom
  rw [closes_bind]
  exact (searches tree explored covers).mono fun result _ held => ⟨held.1, result, held.2⟩

end Searches

variable {follow : Place → Reading SchemaId} {place : Place} {value : Json} {tree : SchemaTree}
variable {members : List (String × Json)}

/-- What is not known yet is read. -/
theorem searchesFrom_unlessKnown {step : Reading SchemaId} (explored : Explored documents within tree)
    (searches : tree.find? place.location = none → SearchesFrom documents within tree step
      fun id last => last.find? place.location = some id) :
    SearchesFrom documents within tree
      (do
        if let some id ← known? place then return id
        step)
      fun id last => last.find? place.location = some id := by
  unfold SearchesFrom
  rw [closes_bind, closes_known?]
  -- A schema that is known is returned as it is, without a step that could fail.
  cases found : tree.find? place.location with
  | some id => exact ⟨.refl explored, found⟩
  | none => exact searches found

/-- A member without the form that is asked for makes its object ill-formed. -/
theorem refuses_of_member {key : String} (inside : within place)
    (here : documents.valueAt? place = some (.object members)) (member : (key, value) ∈ members)
    (refused : documents.accepts place.document key value = false) : Refuses documents within := by
  refine ⟨place, inside, ?_⟩
  rw [Documents.isWellFormed, here]
  exact List.all_eq_false.mpr ⟨(key, value), member, by simp [refused]⟩

/-- A schema object is read if its members are, in the tree that it has joined. -/
theorem searchesFrom_object (territory : documents.Territory within)
    (explored : Explored documents within tree) (inside : within place)
    (here : documents.valueAt? place = some (.object members))
    (searches : tree.find? place.location = none →
      Explored documents within (tree.reserve place.location).2 →
      SearchesFrom documents within (tree.reserve place.location).2
        (clauses documents follow place members members)
        fun _ last => ∀ key value, (key, value) ∈ members →
          documents.accepts place.document key value = true ∧
            ∀ next ∈ documents.onwardFrom place key value, last.Knows next) :
    SearchesFrom documents within tree (schema documents follow place (.object members))
      fun id last => last.find? place.location = some id := by
  rw [schema]
  refine searchesFrom_unlessKnown explored fun fresh => ?_
  have joined := explored.reserve inside (by simp [here]) fresh
  unfold SearchesFrom
  rw [closes_bind, closes_reserve, closes_bind]
  refine (searches fresh joined).mono fun found last held => ?_
  obtain ⟨progress, held⟩ := held
  rw [closes_bind, closes_modify, closes_pure]
  -- The place is settled once its members are read: they are accepted, and they lead to known
  -- places.
  refine progress.around territory fresh inside ?_ here fun next leads => ?_
  · rw [Documents.isWellFormed, here]
    exact List.all_eq_true.mpr fun member listed => (held member.1 member.2 listed).1
  · obtain ⟨members', key, value, here', member, leads⟩ := Documents.mem_onward.mp leads
    rw [here] at here'
    cases here'
    exact (held key value member).2 next leads

/-- A boolean schema is read. -/
theorem searchesFrom_boolean {held : Bool} (territory : documents.Territory within)
    (explored : Explored documents within tree) (inside : within place)
    (here : documents.valueAt? place = some (.bool held)) :
    SearchesFrom documents within tree (schema documents follow place (.bool held))
      fun id last => last.find? place.location = some id := by
  rw [schema]
  refine searchesFrom_unlessKnown explored fun fresh => ?_
  have joined := explored.reserve inside (by simp [here]) fresh
  unfold SearchesFrom
  rw [closes_bind, closes_reserve, closes_bind, closes_modify, closes_pure]
  -- A boolean schema leads nowhere, so that it is settled as soon as it is there.
  refine (Progress.refl joined).around territory fresh inside ?_ here fun next leads => ?_
  · rw [Documents.isWellFormed, here]
  · obtain ⟨members, key, value, here', -⟩ := Documents.mem_onward.mp leads
    rw [here] at here'
    cases here'

/-- A value that is no schema is refused. -/
theorem searchesFrom_other (explored : Explored documents within tree) (inside : within place)
    (here : documents.valueAt? place = some value) (notBool : ∀ held, value ≠ .bool held)
    (notObject : ∀ members, value ≠ .object members) :
    SearchesFrom documents within tree (schema documents follow place value)
      fun id last => last.find? place.location = some id := by
  rw [schema]
  · -- The failure is justified: the place itself is not well-formed.
    refine searchesFrom_unlessKnown explored fun _ => ⟨explored, place, inside, ?_⟩
    rw [Documents.isWellFormed, here]
    split <;> simp_all
  all_goals assumption

/-! What is to be shown of schemas, of members, and of lists of both. -/

/-- A schema at a place of the set is read, and found there. -/
def SearchesSchema (documents : Documents) (follow : Place → Reading SchemaId) (within : Place → Prop)
    (covered : SchemaTree → Prop) (place : Place) (value : Json) : Prop :=
  within place → documents.valueAt? place = some value →
    Searches documents within covered (schema documents follow place value)
      fun id last => last.find? place.location = some id

/-- Whether a member of an object has the form that is asked for, and what it leads to is known. -/
def Taken (documents : Documents) (place : Place) (key : String) (value : Json)
    (tree : SchemaTree) : Prop :=
  documents.accepts place.document key value = true ∧
    ∀ next ∈ documents.onwardFrom place key value, tree.Knows next

/-- A member of an object at a place of the set is read, with what it leads to. -/
def SearchesMember (documents : Documents) (follow : Place → Reading SchemaId) (within : Place → Prop)
    (covered : SchemaTree → Prop) (place : Place) (siblings : List (String × Json)) (key : String)
    (value : Json) : Prop :=
  ∀ members, within place → documents.valueAt? place = some (.object members) →
    (key, value) ∈ members →
      Searches documents within covered (keyword documents follow place siblings key value)
        fun _ last => Taken documents place key value last

/-- Some members of an object at a place of the set are read, with what they lead to. -/
def SearchesMembers (documents : Documents) (follow : Place → Reading SchemaId) (within : Place → Prop)
    (covered : SchemaTree → Prop) (place : Place) (siblings rest : List (String × Json)) : Prop :=
  ∀ members, within place → documents.valueAt? place = some (.object members) → rest ⊆ members →
    Searches documents within covered (clauses documents follow place siblings rest)
      fun _ last => ∀ key value, (key, value) ∈ rest →
        Taken documents place key value last

/-- Schemas in a table are read. -/
def SearchesEntries (documents : Documents) (follow : Place → Reading SchemaId) (within : Place → Prop)
    (covered : SchemaTree → Prop) (place : Place) (list : List (String × Json)) : Prop :=
  (∀ name value, (name, value) ∈ list → within (place.member name) ∧
      documents.valueAt? (place.member name) = some value) →
    Searches documents within covered (entries documents follow place list)
      fun _ last => ∀ entry ∈ list, last.Knows (place.member entry.1)

/-- Schemas in an array are read, from the one with an index on. -/
def SearchesItems (documents : Documents) (follow : Place → Reading SchemaId) (within : Place → Prop)
    (covered : SchemaTree → Prop) (place : Place) (index : Nat) (items : List Json) : Prop :=
  (∀ offset item, items[offset]? = some item → within (place.item (index + offset)) ∧
      documents.valueAt? (place.item (index + offset)) = some item) →
    Searches documents within covered (branches documents follow place index items)
      fun _ last => ∀ offset < items.length, last.Knows (place.item (index + offset))

variable {siblings rest : List (String × Json)} {items : List Json} {key : String}

/-- A schema object is read from the tree that it has joined. -/
theorem searches_object (territory : documents.Territory within) (lasting : Lasting covered)
    (searches : SearchesMembers documents follow within covered place members members) :
    SearchesSchema documents follow within covered place (.object members) := by
  intro inside here tree explored covers
  exact searchesFrom_object territory explored inside here fun _ joined =>
    searches members inside here (List.Subset.refl _) _ joined (lasting .reserve covers)

/-- Members are read one by one: what the first one leads to stays known while the others are read. -/
theorem searches_members (lasting : Lasting covered)
    (first : SearchesMember documents follow within covered place siblings key value)
    (others : SearchesMembers documents follow within covered place siblings rest) :
    SearchesMembers documents follow within covered place siblings ((key, value) :: rest) := by
  intro members inside here subset
  rw [clauses_cons]
  -- The two hypotheses apply to the members of this place, of which these are a part.
  have first := first members inside here (subset List.mem_cons_self)
  have others := others members inside here fun _ listed => subset (List.mem_cons_of_mem _ listed)
  refine (first.bind lasting ?_ fun found => others.map).imp fun _ last _ held key' value' listed => ?_
  · exact fun _ _ _ continues held =>
      ⟨held.1, fun next leads => continues.knows (held.2 next leads)⟩
  · obtain ⟨⟨-, here⟩, -, there⟩ := held
    rcases List.mem_cons.mp listed with same | listed
    · obtain ⟨rfl, rfl⟩ := Prod.mk.inj same
      exact here
    · exact there key' value' listed

/-- A keyword with a wrong value is refused. -/
theorem searches_invalid {problem : SchemaProblem} (nested : nesting key value = .invalid problem) :
    SearchesMember documents follow within covered place siblings key value := by
  intro members inside here member
  rw [keyword_of_invalid nested]
  exact .throw (refuses_of_member inside here member (accepts_of_invalid nested))

/-- A schema in a keyword is read at the place of the keyword. -/
theorem searches_nested {made : SchemaId → Keyword} (proper : documents.Proper)
    (territory : documents.Territory within) (nested : nesting key value = .schema made)
    (inner : SearchesSchema documents follow within covered (place.member key) value) :
    SearchesMember documents follow within covered place siblings key value := by
  intro members inside here member
  obtain ⟨accepts, leads⟩ := of_nesting_schema documents place nested
  unfold Taken
  -- The place of the keyword is inside, because this member leads to it.
  rw [keyword_of_schema nested, leads]
  have inside' : within (place.member key) := territory.onward inside
    (Documents.mem_onward.mpr ⟨members, key, value, here, member, by simp [leads]⟩)
  refine (inner inside' (proper.valueAt?_member here member)).map.imp fun _ last _ found =>
    ⟨accepts, fun next single => ?_⟩
  rw [List.mem_singleton.mp single]
  exact Option.isSome_iff_exists.mpr found

/-- Schemas in the array of a keyword are read at the places of their indices. -/
theorem searches_branches {made : List SchemaId → Keyword} (proper : documents.Proper)
    (territory : documents.Territory within) (nested : nesting key (.array items) = .schemas made)
    (inner : SearchesItems documents follow within covered (place.member key) 0 items) :
    SearchesMember documents follow within covered place siblings key (.array items) := by
  intro members inside here member
  obtain ⟨accepts, leads⟩ := of_nesting_schemas documents place nested
  unfold Taken
  rw [keyword_of_schemas nested, leads]
  have under := proper.valueAt?_member here member
  -- Schemas lead from here to the place of every item.
  have parts (offset : Nat) (item : Json) (found : items[offset]? = some item) :
      within ((place.member key).item (0 + offset)) ∧
        documents.valueAt? ((place.member key).item (0 + offset)) = some item := by
    rw [Nat.zero_add]
    obtain ⟨bound, -⟩ := List.getElem?_eq_some_iff.mp found
    refine ⟨territory.onward inside (Documents.mem_onward.mpr
      ⟨members, key, .array items, here, member, ?_⟩), Documents.valueAt?_item under found⟩
    rw [leads]
    exact List.mem_map_of_mem (List.mem_range.mpr bound)
  refine (inner parts).map.imp fun _ last _ held => ⟨accepts, fun next listed => ?_⟩
  obtain ⟨-, known⟩ := held
  obtain ⟨offset, bound, rfl⟩ := List.mem_map.mp listed
  simpa using known offset (List.mem_range.mp bound)

/-- Schemas in the table of a keyword are read at the places of their names. -/
theorem searches_table {entries : List (String × Json)} {made : List (String × SchemaId) → Keyword}
    (proper : documents.Proper) (territory : documents.Territory within)
    (nested : nesting key (.object entries) = .table made)
    (inner : SearchesEntries documents follow within covered (place.member key) entries) :
    SearchesMember documents follow within covered place siblings key (.object entries) := by
  intro members inside here member
  obtain ⟨accepts, leads⟩ := of_nesting_table documents place nested
  unfold Taken
  rw [keyword_of_table nested, leads]
  have under := proper.valueAt?_member here member
  -- Schemas lead from here to the place of every entry.
  have parts (name : String) (value : Json) (listed : (name, value) ∈ entries) :
      -- The name is one of those the keyword leads to.
      within ((place.member key).member name) ∧
        documents.valueAt? ((place.member key).member name) = some value := by
    refine ⟨territory.onward inside (Documents.mem_onward.mpr
      ⟨members, key, .object entries, here, member, ?_⟩), proper.valueAt?_member under listed⟩
    rw [leads]
    exact List.mem_map.mpr ⟨(name, value), listed, rfl⟩
  refine (inner parts).map.imp fun _ last _ held => ⟨accepts, fun next listed => ?_⟩
  obtain ⟨-, known⟩ := held
  obtain ⟨entry, listed', rfl⟩ := List.mem_map.mp listed
  exact known entry listed'

/-- A reference is followed to its target, which is one of those known beforehand; one that names nothing
is refused at once. -/
theorem searches_reference (territory : documents.Territory within)
    (follows : ∀ target ∈ documents.targets, within target →
      Searches documents within covered (follow target)
        fun id last => last.find? target.location = some id) :
    SearchesMember documents follow within covered place siblings "$ref" value := by
  intro members inside here member
  have refuses (missed : (value.text?.bind (documents.resolve? place.document)) = none) :
      Refuses documents within :=
    -- Without a target the keyword is not accepted, so that a refusal is justified.
    refuses_of_member inside here member (by rw [accepts_reference, missed]; rfl)
  unfold Taken
  rw [keyword_reference, ← bind_pure_comp, accepts_reference, onwardFrom_reference]
  cases value with
  | string text =>
    -- A text names a place or none; a value of another form names none.
    cases found : documents.resolve? place.document text with
    | none =>
      have read : reference documents follow (place.member "$ref") (.string text) =
          throw (.unresolvedReference (place.member "$ref").location text) := by
        simp only [reference, Place.member, found]
      rw [read]
      exact .throw (refuses found)
    | some target =>
      have read : reference documents follow (place.member "$ref") (.string text) = (do
          return .reference text (← follow target)) := by
        simp only [reference, Place.member, found]
      -- The target is one of the places that schemas lead to from here, and one of the targets
      -- listed.
      have leads : target ∈ documents.onward place := by
        refine Documents.mem_onward.mpr ⟨members, "$ref", .string text, here, member, ?_⟩
        rw [onwardFrom_reference]
        simpa [Json.text?] using found
      have inside' := territory.onward inside leads
      have listed : target ∈ documents.targets :=
        Documents.lists_of_valueAt? here text
          (Documents.mem_references_object.mpr ⟨_, _, member, .inl ⟨rfl, rfl⟩⟩) target found
      rw [read]
      refine (follows target listed inside').map.map.imp fun _ last explored held => ?_
      -- What is known is the schema of a place with a value.
      obtain ⟨-, held⟩ := held
      have known : last.Knows target := Option.isSome_iff_exists.mpr held
      refine ⟨?_, fun next single => ?_⟩
      · show ((documents.resolve? place.document text).bind documents.valueAt?).isSome = true
        rw [found]
        exact explored.valueAt? territory inside' known
      · have same : next = target := by simpa [Json.text?, found] using single
        exact same ▸ known
  | _ => exact .throw (refuses rfl)

/-- Where no schema lies inside a keyword, the form of its value decides alone. -/
theorem searches_plain (proper : documents.Proper) (plain : nesting key value = .none)
    (direct : key ≠ "$ref") :
    SearchesMember documents follow within covered place siblings key value := by
  intro members inside here member tree explored _
  unfold Taken
  rw [keyword_of_plain plain direct, onwardFrom_plain plain direct]
  -- The reader accepts the value exactly if the form asked for accepts it.
  have form : (plainKeyword (place.member key).location siblings key value).isOk =
      documents.accepts place.document key value :=
    isOk_plainKeyword (proper.valueAt? (proper.valueAt?_member here member)) plain direct
  unfold SearchesFrom
  rw [closes_liftExcept]
  cases read : plainKeyword (place.member key).location siblings key value with
  | ok found =>
    rw [read] at form
    exact ⟨.refl explored, form.symm, fun _ listed => absurd listed List.not_mem_nil⟩
  -- A value of another form is refused with a reason, the member itself.
  | error fault =>
    rw [read] at form
    exact ⟨explored, refuses_of_member inside here member form.symm⟩

/-- Schemas in a table are read one by one. -/
theorem searches_entries (lasting : Lasting covered)
    (first : SearchesSchema documents follow within covered (place.member key) value)
    (others : SearchesEntries documents follow within covered place rest) :
    SearchesEntries documents follow within covered place ((key, value) :: rest) := by
  intro parts
  rw [entries]
  obtain ⟨inside, here⟩ := parts key value List.mem_cons_self
  have others := others fun name value listed => parts name value (List.mem_cons_of_mem _ listed)
  refine ((first inside here).bind lasting ?_ fun _ => others.map).imp fun _ last _ held entry listed => ?_
  · exact fun _ _ _ continues found => continues.find? found
  · -- The first entry is known since it was read, the others since they were read after it.
    obtain ⟨found, -, known⟩ := held
    rcases List.mem_cons.mp listed with rfl | listed
    · exact Option.isSome_iff_exists.mpr found
    · exact known entry listed

/-- Schemas in an array are read one by one. -/
theorem searches_items {index : Nat} (lasting : Lasting covered)
    (first : SearchesSchema documents follow within covered (place.item index) value)
    (others : SearchesItems documents follow within covered place (index + 1) items) :
    SearchesItems documents follow within covered place index (value :: items) := by
  intro parts
  rw [branches]
  obtain ⟨inside, here⟩ := parts 0 value rfl
  -- Counted from the second item, every offset is smaller by one.
  have others := others fun offset item found => by
    rw [Nat.add_assoc, Nat.add_comm 1]
    exact parts (offset + 1) item found
  refine ((first inside here).bind lasting ?_ fun _ => others.map).imp fun _ last _ held offset bound => ?_
  · exact fun _ _ _ continues found => continues.find? found
  · -- At offset zero stands the first item, at every other offset one of the rest.
    obtain ⟨found, -, known⟩ := held
    cases offset with
    | zero => exact Option.isSome_iff_exists.mpr found
    | succ offset =>
      rw [Nat.add_comm offset, ← Nat.add_assoc]
      exact known offset (by simpa using bound)

/-- Schemas and their members are read within a set of places if references are followed there. -/
theorem searches_schema (proper : documents.Proper) (territory : documents.Territory within)
    (lasting : Lasting covered)
    (follows : ∀ target ∈ documents.targets, within target →
      Searches documents within covered (follow target)
        fun id last => last.find? target.location = some id) :
    (∀ place value, SearchesSchema documents follow within covered place value) ∧
      ∀ place siblings rest, SearchesMembers documents follow within covered place siblings rest := by
  -- Each part of a schema has its lemma above, so that only the parts without a step are left.
  refine parts_induction (SearchesMember documents follow within covered)
    (SearchesEntries documents follow within covered) (SearchesItems documents follow within covered)
    ?boolean (fun _ _ => searches_object territory lasting) ?other ?noMembers
    (fun _ _ _ _ _ => searches_members lasting) (fun _ _ _ _ _ => searches_invalid)
    (fun _ _ _ _ _ => searches_nested proper territory)
    (fun _ _ _ _ _ => searches_branches proper territory)
    (fun _ _ _ _ _ => searches_table proper territory) (fun _ _ _ => searches_reference territory follows)
    (fun _ _ _ _ => searches_plain proper) ?noEntries (fun _ _ _ _ => searches_entries lasting) ?noItems
    (fun _ _ _ _ => searches_items lasting)
  case boolean =>
    exact fun place held inside here tree explored _ =>
      searchesFrom_boolean territory explored inside here
  case other =>
    exact fun place value notBool notObject inside here tree explored _ =>
      searchesFrom_other explored inside here notBool notObject
  case noMembers =>
    exact fun _ _ _ _ _ _ => .pure fun _ _ _ listed => absurd listed List.not_mem_nil
  case noEntries => exact fun _ _ => .pure fun _ _ listed => absurd listed List.not_mem_nil
  case noItems => exact fun _ _ _ => .pure fun _ _ bound => absurd bound (Nat.not_lt_zero _)

end Reading

namespace Reading

variable {documents : Documents} {within : Place → Prop} {place : Place} {tree : SchemaTree}

/-- A reference that is covered is followed within a set of places. -/
theorem searchesFrom_follow (proper : documents.Proper) (territory : documents.Territory within)
    {pending : List Place} (inside : within place) (explored : Explored documents within tree)
    (covers : Covers documents pending tree) (waiting : place ∈ pending ∨ tree.Knows place) :
    SearchesFrom documents within tree (follow documents pending place)
      fun id last => last.find? place.location = some id := by
  -- Inside, fewer places are pending, so the induction is on their number.
  induction size : pending.length using Nat.strong_induction_on generalizing pending place tree with
  | _ size ih =>
    subst size
    unfold SearchesFrom Closes
    cases fresh : tree.find? place.location with
    | some id =>
      rw [follow_of_known fresh]
      exact ⟨.refl explored, fresh⟩
    | none =>
      -- A place that is not known must be pending, which is the place that is struck off here.
      have waiting : place ∈ pending := waiting.resolve_right (by simp [SchemaTree.Knows, fresh])
      rw [follow_of_fresh fresh]
      cases here : documents.valueAt? place with
      | none => exact ⟨explored, place, inside, by rw [Documents.isWellFormed, here]⟩
      | some value =>
        simp only [if_pos waiting]
        show SearchesFrom documents within tree _ _
        cases value with
        | bool held => exact searchesFrom_boolean territory explored inside here
        | object members =>
          refine searchesFrom_object territory explored inside here fun fresh joined => ?_
          -- What is covered stays covered while the tree grows.
          have lasting : Lasting (Covers documents (pending.erase place)) :=
            fun continues covers target listed => (covers target listed).imp_right continues.knows
          refine (searches_schema proper territory lasting fun target listed inside' => ?_).2 place
            -- The references inside are followed with the place struck off, and this makes the list
            -- shorter.
            members members members inside here (List.Subset.refl _) _ joined (covers.erase fresh)
          intro tree explored covers
          exact ih _ (length_erase_lt waiting) inside' explored covers (covers target listed) rfl
        | _ => exact searchesFrom_other explored inside here (by simp) (by simp)

/-- A place is read within a set of places that schemas do not lead out of. -/
theorem searchesFrom_read (proper : documents.Proper) (territory : documents.Territory within)
    (inside : within place) (explored : Explored documents within tree) :
    SearchesFrom documents within tree (documents.read place)
      fun id last => last.find? place.location = some id :=
  searchesFrom_follow proper territory inside explored
    (fun _ listed => .inl (List.mem_cons_of_mem _ listed)) (.inl List.mem_cons_self)

end Reading

namespace Documents

open Reading

variable {documents : Documents} {uri document : String} {place : Place} {tree : SchemaTree}

/-- All that schemas lead to from a place that is complete with all others is complete. -/
theorem settled_of_reaches {root : Place} (known : tree.Knows root)
    (settled : ∀ place, documents.Reaches root place → tree.Knows place → Settled documents tree place)
    (reaches : documents.Reaches root place) : Settled documents tree place := by
  -- The way there is followed step by step.
  have knows : tree.Knows place := by
    induction reaches with
    | refl => exact known
    | tail before leads ih => exact (settled _ before ih).onward _ leads
  exact settled place reaches knows

/-- Reading the root of a document comes to an end, with at most one schema at each location, all of
them at places that schemas lead to from the root. It succeeds exactly if all these places are
well-formed, and then each of them is complete. -/
theorem root_accepts_iff (proper : documents.Proper)
    (registered : documents.canonical? uri = some document) :
    documents.root uri = documents.read ⟨document, ""⟩ ∧
    (∀ read, documents.Recurs read ↔ read = documents.read) ∧
    Explored documents (documents.Reaches ⟨document, ""⟩) (lastState (documents.root uri) {}) ∧
    ((∃ id tree, (documents.root uri).run {} = .ok id tree) ↔
      ∀ place, documents.Reaches ⟨document, ""⟩ place → documents.isWellFormed place = true) ∧
    ∀ id tree, (documents.root uri).run {} = .ok id tree →
      tree.find? (Place.location ⟨document, ""⟩) = some id ∧
        ∀ place, documents.Reaches ⟨document, ""⟩ place → Settled documents tree place := by
  have territory : documents.Territory (documents.Reaches ⟨document, ""⟩) :=
    proper.territory_reaches (proper.unhashed uri _ registered)
  have searches := searchesFrom_read proper territory .refl .empty
  rw [root_eq registered]
  refine ⟨rfl, fun _ => recurs_iff, ?_, ?_⟩
  · exact (searches.imp (fun _ _ held => held.1.explored) fun _ _ failure => failure.1).lastState
  -- After a success all is complete, because nothing was known at the start.
  have complete {id : SchemaId} {tree : SchemaTree}
      (ran : (documents.read ⟨document, ""⟩).run {} = .ok id tree) :
      tree.find? (Place.location ⟨document, ""⟩) = some id ∧
        ∀ place, documents.Reaches ⟨document, ""⟩ place → Settled documents tree place := by
    obtain ⟨progress, found⟩ := searches.of_ok ran
    -- Completeness spreads from the root along the places that are reached.
    refine ⟨found, fun place reaches => settled_of_reaches ?_ (fun other reaches known => ?_) reaches⟩
    · exact Option.isSome_iff_exists.mpr ⟨id, found⟩
    · exact (progress.settled other reaches known).resolve_left
        SchemaTree.not_knows_empty
  refine ⟨⟨?_, fun wellFormed => ?_⟩, fun id tree ran => complete ran⟩
  · rintro ⟨id, tree, ran⟩ place reaches
    exact ((complete ran).2 place reaches).wellFormed
  · -- A failure names a place that is not well-formed, against the assumption.
    cases ran : (documents.read ⟨document, ""⟩).run {} with
    | ok id tree => exact ⟨id, tree, rfl⟩
    | error fault last =>
      obtain ⟨-, place, reaches, refused⟩ := searches.of_error ran
      rw [wellFormed place reaches] at refused
      cases refused

/-- Two documents that refer to each other, with a definition that nothing refers to. -/
def circularDocuments : Documents where
  contents := ⟨[
    ("urn:a", .object [
      ("items", .object [("$ref", .string "urn:b#/definitions/next")]),
      ("definitions", .object [("unused", .object [("minLength", .integer (-1))])])]),
    ("urn:b", .object [
      ("definitions", .object [("next", .object [("not", .object [("$ref", .string "urn:a")])])])])]⟩

/-- The places that the first of them leads to. -/
def circularPlaces : List Place :=
  [⟨"urn:a", ""⟩, ⟨"urn:a", "/items"⟩, ⟨"urn:b", "/definitions/next"⟩,
    ⟨"urn:b", "/definitions/next/not"⟩]

/-- References in a circle are read, and what is wrong elsewhere is not looked at. -/
theorem root_accepts_circular :
    circularDocuments.Proper ∧ circularDocuments.canonical? "urn:a" = some "urn:a" ∧
      circularDocuments.isWellFormed ⟨"urn:a", "/definitions/unused"⟩ = false ∧
      ∃ id tree, (circularDocuments.root "urn:a").run {} = .ok id tree := by
  have proper : circularDocuments.Proper := .of_entries (by decide +kernel) (by decide)
  have registered : circularDocuments.canonical? "urn:a" = some "urn:a" := by decide +kernel
  refine ⟨proper, registered, by decide +kernel,
    (root_accepts_iff proper registered).2.2.2.1.mpr fun place reaches => ?_⟩
  -- The list is closed under steps, so that whatever is reached from the root stands in it.
  have onward : ∀ place ∈ circularPlaces, ∀ next ∈ circularDocuments.onward place,
      next ∈ circularPlaces := by decide +kernel
  have wellFormed : ∀ place ∈ circularPlaces, circularDocuments.isWellFormed place = true := by
    decide +kernel
  have listed : place ∈ circularPlaces := by
    -- Only the last step is looked at, since reachability grows at its end.
    induction reaches with
    | refl => exact List.mem_cons_self
    | tail _ leads ih => exact onward _ ih _ leads
  exact wellFormed place listed

end Documents

end SchemaClasses
