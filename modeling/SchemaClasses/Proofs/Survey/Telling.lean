import SchemaClasses.Proofs.Survey.Combination
import SchemaClasses.Proofs.Survey.Routes

/-! What a schema tells about the value at the end of a route, and records that sum up what is told
about theirs. -/

namespace SchemaClasses

/-- What is told about the value at the end of a route. -/
inductive Entry where
  /-- That a schema describes it. -/
  | described
  | boolean
  | keyword (keyword : Keyword)
  /-- A schema of which it may be an instance. -/
  | branch (schema : SchemaId)

namespace SchemaTree

/-- The schemas that a keyword merges, and where. -/
def leads (tree : SchemaTree) (route : Route) : Keyword → List (SchemaId × Route)
  | .reference _ target => [(target, route)]
  | .allOf branches => branches.map (·, route)
  | .anyOf branches => (Survey.nullableForm? tree branches).toList.map (·, route)
  | .oneOf branches => (Survey.nullableForm? tree branches).toList.map (·, route)
  | .negation schema => [(schema, route.flip)]
  | .properties entries => entries.map fun entry => (entry.2, .slot (.property entry.1) :: route)
  | .patternProperties entries =>
    entries.map fun entry => (entry.2, .slot (.patternProperty entry.1) :: route)
  | .additionalProperties schema =>
    match (tree.schema schema).body with
    | .boolean _ => []
    | .object .. => [(schema, .slot .additional :: route)]
  | .items schema => [(schema, .slot .items :: route)]
  | _ => []

/-- The branches of a keyword that get records of their own. -/
def branches (tree : SchemaTree) : Keyword → List SchemaId
  | .oneOf branches => if (Survey.nullableForm? tree branches).isSome then [] else branches
  | _ => []

/-- What a visit of a schema tells, and where. -/
inductive Tells (tree : SchemaTree) :
    List SchemaId → SchemaId → Route → Route → Entry → Prop where
  | described {opened : List SchemaId} {schema : SchemaId} {route : Route} :
      Tells tree opened schema route route .described
  | boolean {opened : List SchemaId} {schema : SchemaId} {route : Route} {value : Bool}
      (body : (tree.schema schema).body = .boolean value) :
      Tells tree opened schema route route .boolean
  | keyword {opened : List SchemaId} {schema : SchemaId} {route : Route} {clause : Clause}
      (isOpen : schema ∈ opened) (stated : clause ∈ (tree.schema schema).clauses)
      (own : ∀ branches, clause.keyword ≠ .allOf branches) :
      Tells tree opened schema route route (.keyword clause.keyword)
  | branch {opened : List SchemaId} {schema inner : SchemaId} {route : Route} {clause : Clause}
      (isOpen : schema ∈ opened) (stated : clause ∈ (tree.schema schema).clauses)
      (branch : inner ∈ tree.branches clause.keyword) :
      Tells tree opened schema route route (.branch inner)
  | inside {opened : List SchemaId} {schema inner : SchemaId} {route further there : Route}
      {entry : Entry} {clause : Clause} (isOpen : schema ∈ opened)
      (stated : clause ∈ (tree.schema schema).clauses)
      (leads : (inner, further) ∈ tree.leads route clause.keyword)
      (tells : Tells tree (opened.erase schema) inner further there entry) :
      Tells tree opened schema route there entry

/-- All that a visit of a schema tells. -/
def told (tree : SchemaTree) (opened : List SchemaId) (schema : SchemaId) (route : Route) :
    Set (Route × Entry) :=
  { note | tree.Tells opened schema route note.1 note.2 }

/-- All that a keyword tells, if the visits of schemas inside it tell what is given. -/
def clauseTold (tree : SchemaTree) (told : SchemaId → Route → Set (Route × Entry)) (route : Route)
    (keyword : Keyword) : Set (Route × Entry) :=
  { note | (note = (route, .keyword keyword) ∧ ∀ branches, keyword ≠ .allOf branches) ∨
    (∃ schema ∈ tree.branches keyword, note = (route, .branch schema)) ∨
    ∃ inner ∈ tree.leads route keyword, note ∈ told inner.1 inner.2 }

/-- How much a schema settles about additional properties. -/
def additionalRank (tree : SchemaTree) (schema : SchemaId) : Nat :=
  match (tree.schema schema).body with
  | .boolean true => 1
  | .object .. => 2
  | .boolean false => 3

variable {tree : SchemaTree} {opened : List SchemaId} {schema : SchemaId} {route there : Route}
variable {entry : Entry}

theorem additionalRank_le_three (schema : SchemaId) : tree.additionalRank schema ≤ 3 := by
  unfold additionalRank
  split <;> decide

/-- A schema object does not forbid additional properties. -/
theorem additionalRank_of_object (body : ∀ value, (tree.schema schema).body ≠ .boolean value) :
    tree.additionalRank schema = 2 := by
  unfold additionalRank
  split
  · exact absurd ‹_› (body true)
  · rfl
  · exact absurd ‹_› (body false)

/-- Wherever something is told, a schema describes the value. -/
theorem Tells.described_of (tells : tree.Tells opened schema route there entry) :
    tree.Tells opened schema route there .described := by
  induction tells with
  | inside isOpen stated leads _ ih => exact .inside isOpen stated leads ih
  | _ => exact .described

/-- A keyword leads to the value itself, to its opposite or into a place. -/
theorem eq_of_mem_leads {keyword : Keyword} {inner : SchemaId} {further : Route}
    (leads : (inner, further) ∈ tree.leads route keyword) :
    further = route ∨ further = route.flip ∨ ∃ slot, further = .slot slot :: route := by
  -- Only the keywords that hold schemas lead anywhere.
  cases keyword
  -- Only a schema that is an object has something to tell inside.
  case additionalProperties schema =>
    simp only [SchemaTree.leads] at leads
    split at leads
    · cases leads
    · exact .inr (.inr ⟨.additional, congrArg Prod.snd (List.mem_singleton.mp leads)⟩)
  case properties entries =>
    obtain ⟨entry, -, same⟩ := List.mem_map.mp leads
    exact .inr (.inr ⟨.property entry.1, (congrArg Prod.snd same).symm⟩)
  case patternProperties entries =>
    obtain ⟨entry, -, same⟩ := List.mem_map.mp leads
    exact .inr (.inr ⟨.patternProperty entry.1, (congrArg Prod.snd same).symm⟩)
  case items schema =>
    exact .inr (.inr ⟨.items, congrArg Prod.snd (List.mem_singleton.mp leads)⟩)
  case negation schema => exact .inr (.inl (congrArg Prod.snd (List.mem_singleton.mp leads)))
  case reference text target => exact .inl (congrArg Prod.snd (List.mem_singleton.mp leads))
  -- Combined schemas describe the value itself.
  case allOf branches =>
    obtain ⟨branch, -, same⟩ := List.mem_map.mp leads
    exact .inl (congrArg Prod.snd same).symm
  case anyOf branches =>
    obtain ⟨branch, -, same⟩ := List.mem_map.mp leads
    exact .inl (congrArg Prod.snd same).symm
  case oneOf branches =>
    obtain ⟨branch, -, same⟩ := List.mem_map.mp leads
    exact .inl (congrArg Prod.snd same).symm
  all_goals cases leads

/-- What a visit under a place tells is about values under that place. -/
theorem Tells.suffix {slot : Slot} {rest : Route} (tells : tree.Tells opened schema route there entry)
    (below : .slot slot :: rest <:+ route) : .slot slot :: rest <:+ there := by
  induction tells with
  -- A keyword leads to the same value, to its opposite, or further inside.
  | @inside opened schema inner route further there entry clause isOpen stated leads _ ih =>
    refine ih ?_
    rcases eq_of_mem_leads leads with rfl | rfl | ⟨inside, rfl⟩
    · exact below
    · -- The opposite of a value under a place does not leave the place.
      unfold Route.flip
      split
      · rcases List.suffix_cons_iff.mp below with same | below
        · cases same
        · exact below
      · exact below.trans (List.suffix_cons _ _)
    · exact below.trans (List.suffix_cons _ _)
  | _ => exact below

/-- A schema object that is being visited tells nothing more. -/
theorem told_of_closed {source : Json} {clauses : List Clause}
    (body : (tree.schema schema).body = .object source clauses) (closed : schema ∉ opened) :
    tree.told opened schema route = {(route, .described)} := by
  ext ⟨there, entry⟩
  constructor
  · intro tells
    -- All that a visit could tell needs the schema to be open.
    cases tells with
    | described => rfl
    | boolean body' => rw [body] at body'; cases body'
    | keyword isOpen => exact absurd isOpen closed
    | branch isOpen => exact absurd isOpen closed
    | inside isOpen => exact absurd isOpen closed
  · rintro ⟨⟩
    exact .described

theorem told_of_busy (isBusy : Survey.isBusy tree opened schema = true) :
    tree.told opened schema route = {(route, .described)} := by
  unfold Survey.isBusy at isBusy
  split at isBusy
  · cases isBusy
  · exact told_of_closed ‹_› (of_decide_eq_true isBusy)

/-- A boolean schema tells that it is one. -/
theorem told_of_boolean {value : Bool} (body : (tree.schema schema).body = .boolean value) :
    tree.told opened schema route = {(route, .described)} ∪ {(route, .boolean)} := by
  -- There is no keyword that could tell more.
  have bare (clause : Clause) : clause ∉ (tree.schema schema).clauses := by
    simp [Schema.clauses, body]
  ext ⟨there, entry⟩
  constructor
  · intro tells
    -- The other entries come from keywords, of which there is none.
    cases tells with
    | described => exact .inl rfl
    | boolean => exact .inr rfl
    | keyword _ stated => exact absurd stated (bare _)
    | branch _ stated => exact absurd stated (bare _)
    | inside _ stated => exact absurd stated (bare _)
  · rintro (same | same)
    · cases Set.mem_singleton_iff.mp same
      exact .described
    · cases Set.mem_singleton_iff.mp same
      exact .boolean body

/-- An open schema object tells what its keywords tell. -/
theorem told_of_open {source : Json} {clauses : List Clause}
    (body : (tree.schema schema).body = .object source clauses) (isOpen : schema ∈ opened) :
    tree.told opened schema route =
      {(route, .described)} ∪ { note | ∃ clause ∈ clauses,
        note ∈ tree.clauseTold (tree.told (opened.erase schema)) route clause.keyword } := by
  have clausesEq : (tree.schema schema).clauses = clauses := by simp [Schema.clauses, body]
  ext ⟨there, entry⟩
  constructor
  · intro tells
    -- A keyword tells that it stands there, what its branches are, and what its schemas tell.
    cases tells with
    | described => exact .inl rfl
    | boolean body' => rw [body] at body'; cases body'
    | keyword _ stated own => exact .inr ⟨_, clausesEq ▸ stated, .inl ⟨rfl, own⟩⟩
    | branch _ stated branch => exact .inr ⟨_, clausesEq ▸ stated, .inr (.inl ⟨_, branch, rfl⟩)⟩
    | inside _ stated leads tells =>
      exact .inr ⟨_, clausesEq ▸ stated, .inr (.inr ⟨_, leads, tells⟩)⟩
  · -- The other way, each of these is told by the visit.
    rintro (same | ⟨clause, stated, ⟨same, own⟩ | ⟨inner, branch, same⟩ | ⟨inner, leads, tells⟩⟩)
    · cases Set.mem_singleton_iff.mp same
      exact .described
    · cases same
      exact .keyword isOpen (clausesEq ▸ stated) own
    · cases same
      exact .branch isOpen (clausesEq ▸ stated) branch
    · exact .inside isOpen (clausesEq ▸ stated) leads tells

section Clauses

variable {told : SchemaId → Route → Set (Route × Entry)} {keyword : Keyword}

/-- A keyword without branches tells itself and what the schemas tell that it leads to. -/
theorem clauseTold_of_leads {α : Type} {items : List α} {lead : α → SchemaId × Route}
    (own : ∀ branches, keyword ≠ .allOf branches) (bare : tree.branches keyword = [])
    (leads : tree.leads route keyword = items.map lead) :
    {(route, .keyword keyword)} ∪ { note | ∃ item ∈ items, note ∈ told (lead item).1 (lead item).2 } =
      tree.clauseTold told route keyword := by
  ext note
  simp [clauseTold, bare, leads, own]

/-- A keyword that leads to a single schema tells itself and what the schema tells. -/
theorem clauseTold_of_lead {inner : SchemaId} {further : Route}
    (own : ∀ branches, keyword ≠ .allOf branches) (bare : tree.branches keyword = [])
    (leads : tree.leads route keyword = [(inner, further)]) :
    {(route, .keyword keyword)} ∪ told inner further = tree.clauseTold told route keyword := by
  rw [← clauseTold_of_leads own bare (leads.trans (List.map_id _).symm)]
  simp

/-- A keyword that leads to no schema tells itself. -/
theorem clauseTold_of_nil (own : ∀ branches, keyword ≠ .allOf branches)
    (bare : tree.branches keyword = []) (leads : tree.leads route keyword = []) :
    {(route, .keyword keyword)} = tree.clauseTold told route keyword := by
  rw [← clauseTold_of_leads own bare (leads.trans (@List.map_nil _ _ id).symm)]
  simp

/-- A keyword without schemas inside tells itself. -/
theorem clauseTold_of_plain (plain : ¬ keyword.HoldsSchemas) :
    {(route, .keyword keyword)} = tree.clauseTold told route keyword := by
  refine clauseTold_of_nil (fun branches => ?_) ?_ ?_
  · rintro rfl
    exact plain trivial
  · cases keyword <;> first | rfl | exact absurd trivial plain
  · cases keyword <;> first | rfl | exact absurd trivial plain

end Clauses

end SchemaTree

namespace Record

/-- No keyword denies null. -/
theorem nullable_of_absorb {record merged : Record} {location : String} {keyword : Keyword}
    (absorbed : record.absorb location keyword = .ok merged) (undenied : record.nullable ≠ some false) :
    merged.nullable ≠ some false := by
  have absorbs := absorbs_of_absorb absorbed
  cases absorbs with
  -- Types may admit null, and no other keyword has a say in it.
  | types names _ _ =>
    rw [← Except.ok.inj absorbed]
    refine List.foldlRecOn names _ (motive := fun held : Record => held.nullable ≠ some false) undenied
      fun held undenied type _ => ?_
    unfold addType
    split
    · simp
    · exact undenied
  | _ => exact undenied

/-- A record that sums up what is told about its value. -/
structure Sums (tree : SchemaTree) (branched : SchemaId → Prop) (told : Set Entry) (record : Record) :
    Prop where
  combines : ∃ names patterns, record.stated.Combines tree (fun keyword => .keyword keyword ∈ told)
    (.boolean ∈ told) names patterns
  settled : ∀ n, n < AdditionalProperties.rank record.additional ↔
    ∃ schema, .keyword (.additionalProperties schema) ∈ told ∧ n < tree.additionalRank schema
  branches : ∀ schema, branched schema ↔ .branch schema ∈ told
  /-- That null is not admitted is never written down. -/
  undenied : record.nullable ≠ some false

/-- A change of a record that leads to the same records and makes it sum up more. -/
structure Takes (tree : SchemaTree) (told : Set Entry) (record merged : Record) : Prop where
  origin : record.SameOrigin merged
  places : ∀ place, record.SameAt merged place
  sums : ∀ (branched : SchemaId → Prop) (before : Set Entry),
    record.Sums tree branched before → merged.Sums tree branched (before ∪ told)

namespace Sums

variable {tree : SchemaTree} {branched : SchemaId → Prop} {told : Set Entry} {record merged : Record}
variable {keyword : Keyword} {location : String}

/-- What sums up does not depend on anything but statements and additional properties. -/
theorem congr (sums : record.Sums tree branched told) (stated : merged.stated = record.stated)
    (additional : merged.additional = record.additional) : merged.Sums tree branched told where
  combines := stated ▸ sums.combines
  settled := additional ▸ sums.settled
  branches := sums.branches
  undenied := by
    have same : merged.stated.nullable = record.stated.nullable := by rw [stated]
    exact fun denied => sums.undenied (same.symm.trans denied)

/-- A record without any statement sums up that a schema describes its value. -/
theorem of_fresh (stated : record.stated = {}) (additional : record.additional = none) :
    record.Sums tree (fun _ => False) {.described} where
  combines := ⟨[], [], by
    rw [stated]
    exact combines_nothing.congr (by simp) (by simp)⟩
  -- Nothing is settled about additional properties.
  settled n := by simp [additional, AdditionalProperties.rank]
  branches schema := by simp
  undenied := by
    have same : record.stated.nullable = none := by rw [stated]
    intro denied
    cases same.symm.trans denied

/-- That a schema describes the value adds nothing. -/
theorem describe (sums : record.Sums tree branched told) :
    record.Sums tree branched (insert Entry.described told) where
  combines := by
    obtain ⟨names, patterns, combines⟩ := sums.combines
    exact ⟨names, patterns, combines.congr (by simp) (by simp)⟩
  settled n := by simpa using sums.settled n
  branches schema := by simpa using sums.branches schema
  undenied := sums.undenied

/-- A boolean schema is told. -/
theorem boolean (sums : record.Sums tree branched told) :
    { record with nullable := some true }.Sums tree branched (insert Entry.boolean told) where
  combines := by
    obtain ⟨names, patterns, combines⟩ := sums.combines
    exact ⟨names, patterns, combines.admitNull.congr (by simp) (by simp)⟩
  settled n := by simpa using sums.settled n
  branches schema := by simpa using sums.branches schema
  undenied := by simp

/-- A keyword is told whose effect on the outline is known. -/
theorem take (sums : record.Sums tree branched told)
    (other : ∀ schema, keyword ≠ .additionalProperties schema)
    (additional : merged.additional = record.additional) (undenied : merged.nullable ≠ some false)
    (takes : ∀ names patterns, ∃ after absorbed nullable, Outline.TakesClause tree keyword
      ⟨record.stated, names, patterns⟩ after absorbed nullable ∧ after.stated = merged.stated) :
    merged.Sums tree branched (insert (Entry.keyword keyword) told) where
  combines := by
    obtain ⟨names, patterns, combines⟩ := sums.combines
    obtain ⟨after, absorbed, nullable, takes, stated⟩ := takes names patterns
    -- The keyword joins those that the outline has taken.
    have combines := takes.combines combines
    rw [stated] at combines
    exact ⟨_, _, combines.congr (by simp [or_comm]) (by simp)⟩
  -- The rank of the place stays, as the keyword is another one.
  settled n := by
    have apart (schema : SchemaId) : Keyword.additionalProperties schema ≠ keyword :=
      fun same => other schema same.symm
    simpa [additional, apart] using sums.settled n
  branches schema := by simpa using sums.branches schema
  undenied := undenied

/-- A keyword without schemas inside is told once it is absorbed. -/
theorem absorb (sums : record.Sums tree branched told)
    (absorbed : record.absorb location keyword = .ok merged) (plain : ¬ keyword.HoldsSchemas) :
    merged.Sums tree branched (insert (Entry.keyword keyword) told) := by
  -- Absorbing a keyword does the same to the outline as to the record.
  have stated : record.stated.absorb location keyword = .ok merged.stated := by
    rw [stated_absorb, absorbed]
    rfl
  refine sums.take (fun schema same => plain (by rw [same]; trivial)) ?_
    (nullable_of_absorb absorbed sums.undenied) fun names patterns => ?_
  · rw [← restate_absorb absorbed]
    rfl
  · -- A keyword without schemas admits no null by its form and names no properties.
    refine ⟨⟨merged.stated, names, patterns⟩, merged.stated, merged.stated.nullable,
      ⟨absorbs_of_absorb stated, rfl, ?_, fun name => ?_, fun pattern => ?_⟩, rfl⟩
    · refine (or_iff_left ?_).symm
      rintro ⟨branches, rfl | rfl, -⟩ <;> exact plain trivial
    · refine (or_iff_left ?_).symm
      rintro ⟨entries, -, -, rfl, -⟩
      exact plain trivial
    · refine (or_iff_left ?_).symm
      rintro ⟨entries, -, rfl, -⟩
      exact plain trivial

/-- The names and the patterns of properties that a keyword with schemas inside adds. -/
theorem exists_names (keyword : Keyword) (names : List (Option String)) (patterns : List String) :
    ∃ (names' : List (Option String)) (patterns' : List String),
      (∀ name, name ∈ names' ↔ name ∈ names ∨ ∃ entries text schema,
        keyword = .properties entries ∧ (text, schema) ∈ entries ∧ name = some text) ∧
      ∀ pattern, pattern ∈ patterns' ↔ pattern ∈ patterns ∨ ∃ entries schema,
        keyword = .patternProperties entries ∧ (pattern, schema) ∈ entries := by
  cases keyword
  -- Only these two keywords add anything.
  case properties entries =>
    refine ⟨names ++ entries.map fun entry => some entry.1, patterns, fun name => ?_, by simp⟩
    simp [eq_comm]
  case patternProperties entries =>
    refine ⟨names, patterns ++ entries.map fun entry => entry.1, by simp, fun pattern => ?_⟩
    simp
  all_goals exact ⟨names, patterns, by simp, by simp⟩

/-- A keyword that only has schemas inside is told. -/
theorem inner (sums : record.Sums tree branched told) (holds : keyword.HoldsSchemas)
    (other : ∀ schema, keyword ≠ .additionalProperties schema) (plain : ¬ keyword.AdmitsNull tree) :
    record.Sums tree branched (insert (Entry.keyword keyword) told) := by
  refine sums.take other rfl sums.undenied fun names patterns => ?_
  obtain ⟨names', patterns', named, patterned⟩ := exists_names keyword names patterns
  refine ⟨⟨record.stated, names', patterns'⟩, record.stated, record.stated.nullable, ?_, rfl⟩
  exact ⟨.inner holds, rfl, (or_iff_left plain).symm, named, patterned⟩

/-- A keyword that admits null is told once null is admitted. -/
theorem admitNull (sums : record.Sums tree branched told) (admits : keyword.AdmitsNull tree) :
    { record with nullable := some true }.Sums tree branched
      (insert (Entry.keyword keyword) told) := by
  -- Such a keyword holds the two branches.
  have holds : keyword.HoldsSchemas := by
    obtain ⟨branches, rfl | rfl, -⟩ := admits <;> trivial
  have other (schema : SchemaId) : keyword ≠ .additionalProperties schema := by
    obtain ⟨branches, rfl | rfl, -⟩ := admits <;> exact Keyword.noConfusion
  refine sums.take other rfl (by simp) fun names patterns => ?_
  obtain ⟨names', patterns', named, patterned⟩ := exists_names keyword names patterns
  refine ⟨⟨{ record.stated with nullable := some true }, names', patterns'⟩, record.stated, some true,
    ?_, rfl⟩
  exact ⟨.inner holds, rfl, by simp [admits], named, patterned⟩

/-- A keyword for additional properties is told once what it settles is settled. -/
theorem settle {schema : SchemaId} {additional : Option AdditionalProperties}
    (sums : record.Sums tree branched told)
    (rank : AdditionalProperties.rank additional =
      max (AdditionalProperties.rank record.additional) (tree.additionalRank schema)) :
    { record with additional }.Sums tree branched
      (insert (Entry.keyword (.additionalProperties schema)) told) where
  combines := by
    obtain ⟨names, patterns, combines⟩ := sums.combines
    obtain ⟨names', patterns', named, patterned⟩ :=
      exists_names (.additionalProperties schema) names patterns
    -- The keyword states nothing of the value itself, only its rank counts.
    have takes : Outline.TakesClause tree (.additionalProperties schema)
        ⟨record.stated, names, patterns⟩ ⟨record.stated, names', patterns'⟩ record.stated
        record.stated.nullable :=
      ⟨.inner trivial, rfl, by simp [Keyword.AdmitsNull], named, patterned⟩
    exact ⟨names', patterns', (takes.combines combines).congr (by simp [or_comm]) (by simp)⟩
  settled n := by
    show n < AdditionalProperties.rank additional ↔ _
    -- The rank is the larger one, and that decides what lies below it.
    rw [rank, lt_max_iff, sums.settled]
    simp only [Set.mem_insert_iff, Entry.keyword.injEq, Keyword.additionalProperties.injEq]
    grind
  branches other := by simpa using sums.branches other
  undenied := sums.undenied

/-- A branch is told once it is there. -/
theorem branch {schema : SchemaId} {branched' : SchemaId → Prop}
    (sums : record.Sums tree branched told)
    (joined : ∀ other, branched' other ↔ branched other ∨ other = schema) :
    record.Sums tree branched' (insert (Entry.branch schema) told) where
  combines := by
    obtain ⟨names, patterns, combines⟩ := sums.combines
    exact ⟨names, patterns, combines.congr (by simp) (by simp)⟩
  settled n := by simpa using sums.settled n
  -- The branch that joins is the one that is told.
  branches other := by simp [joined, sums.branches, or_comm]
  undenied := sums.undenied

end Sums

/-- A change that states nothing tells nothing. -/
theorem Takes.of_stated {tree : SchemaTree} {told : Set Entry} {record merged : Record}
    (untold : told = ∅) (origin : record.SameOrigin merged)
    (places : ∀ place, record.SameAt merged place) (stated : merged.stated = record.stated) :
    record.Takes tree told merged where
  origin := origin
  places := places
  sums _ _ sums := by
    rw [untold, Set.union_empty]
    exact sums.congr stated (places .additional)

end Record

end SchemaClasses
