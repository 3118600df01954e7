import SchemaClasses.Proofs.Reading.Links
import SchemaClasses.Proofs.Run

/-! The plain recursion of a survey, with a stack of the schema objects that are being visited. It
ends within a known depth, only looks at schemas of its tree, and leaves its stack as it was. -/

namespace SchemaClasses

/-- Whether a schema is an object, which has keywords, and no boolean. -/
def SchemaTree.IsObject (tree : SchemaTree) (id : SchemaId) : Prop :=
  ∃ source clauses, (tree.schema id).body = .object source clauses

namespace Survey

/-- A walk: the schema objects that are being visited, the innermost first, and what was gathered. -/
structure Walk where
  active : List SchemaId
  survey : Survey

/-- A step of a walk, which keeps its stack and what was gathered before a fault. -/
abbrev Walking := EStateM Fault Walk

/-- A step that leaves the stack alone. -/
def surveying {α : Type} (part : Surveying α) : Walking α := fun walk =>
  match part walk.survey with
  | .ok result last => .ok result { walk with survey := last }
  | .error fault last => .error fault { walk with survey := last }

/-- A step that looks at schemas; `stray` is what happens if one of them is not in the tree. -/
def lookingAt (tree : SchemaTree) (stray : Walking Unit) (schemas : List SchemaId)
    (step : Walking Unit) : Walking Unit :=
  if ∀ schema ∈ schemas, tree.Holds schema then step else stray

section

variable (tree : SchemaTree) (visit : SchemaId → RecordId → Walking Unit)

/-- One record for each branch that has none yet. -/
def walkBranches (id : RecordId) (branches : List SchemaId) : Walking Unit :=
  branches.forM fun branch => do
    let ledger := (← get).survey.ledger
    unless (ledger.record id).oneOf.any fun known => (ledger.record known).schema == some branch do
      let record ← surveying (onLedger (·.create (some branch) none))
      visit branch record
      surveying (update id fun held => { held with oneOf := held.oneOf ++ [record] })

/-- What additional properties may be. -/
def walkAdditional (schema : SchemaId) (id : RecordId) : Walking Unit := do
  match (← surveying (record id)).additional, (tree.schema schema).body with
  | some .forbidden, _ => pure ()
  | _, .boolean false =>
    surveying (update id fun record => { record with additional := some .forbidden })
  | some _, .boolean true => pure ()
  | none, .boolean true =>
    surveying (update id fun record => { record with additional := some .allowed })
  | some (.schema held), _ => visit schema held
  | _, _ =>
    let inner ← surveying (onLedger (·.create (some schema) none))
    surveying (update id fun record => { record with additional := some (.schema inner) })
    visit schema inner

/-- A keyword merged into a record; a reference is followed unless its target is on the stack. -/
def walkKeyword (id : RecordId) (clause : Clause) : Walking Unit := do
  match clause.keyword with
  | .reference _ target => unless target ∈ (← get).active do visit target id
  | .allOf branches => branches.forM fun branch => visit branch id
  | .anyOf branches =>
    match nullableForm? tree branches with
    | some branch =>
      visit branch id
      surveying (update id fun record => { record with nullable := some true })
    | none => surveying (report (.ignoredAnyOf clause.location branches.length))
  | .oneOf branches =>
    match nullableForm? tree branches with
    | some branch =>
      visit branch id
      surveying (update id fun record => { record with nullable := some true })
    | none => walkBranches visit id branches
  | .negation schema =>
    let negation ← surveying (onLedger (·.negation id))
    visit schema negation
  | .properties entries =>
    entries.forM fun (name, schema) => do
      let property ← surveying (onLedger (·.property id name schema))
      visit schema property
  | .patternProperties entries =>
    entries.forM fun (pattern, schema) => do
      surveying (checkPattern clause.location pattern)
      let value ← surveying (onLedger (·.patternProperty id pattern schema))
      visit schema value
  | .additionalProperties schema => walkAdditional tree visit schema id
  | .items schema =>
    let items ← surveying (onLedger (·.items id schema))
    visit schema items
  | keyword =>
    if let .pattern text := keyword then surveying (checkPattern clause.location text)
    match (← surveying (record id)).absorb clause.location keyword with
    | .ok merged => surveying (update id fun _ => merged)
    | .error fault => throw fault

end

/-- A schema merged into a record, by a recursion that goes `depth` visits deep at most: `beyond` is
what happens where it is asked to go deeper. A schema object that is on the stack is not entered. -/
def walk (tree : SchemaTree) (beyond stray : Walking Unit) :
    Nat → SchemaId → RecordId → Walking Unit
  | 0, _, _ => beyond
  | depth + 1, schema, id =>
    lookingAt tree stray (schema :: (tree.schema schema).clauses.flatMap (·.keyword.schemas)) do
      surveying (noteReference tree schema id)
      match (tree.schema schema).body with
      | .boolean _ => surveying (update id fun record => { record with nullable := some true })
      | .object source clauses =>
        unless schema ∈ (← get).active do
          modify fun walk => { walk with active := schema :: walk.active }
          surveying (noteTitles (tree.schema schema) id)
          clauses.forM fun clause => walkKeyword tree (walk tree beyond stray depth) id clause
          surveying (checkExamples (tree.location schema) source)
          modify fun walk => { walk with active := walk.active.tail }

/-- The end of a walk that gathered what a survey did: on success its stack is the one given first,
after a fault the other one. -/
def ended {α : Type} (active left : List SchemaId) : EStateM.Result Fault Survey α →
    EStateM.Result Fault Walk α
  | .ok result last => .ok result ⟨active, last⟩
  | .error fault last => .error fault ⟨left, last⟩

variable {α β : Type} {tree : SchemaTree} {active : List SchemaId} {beyond stray : Walking Unit}

/-- A part of a walk that does what a part of a survey does. It leaves the stack as it was, or with
more schema objects on it if it fails. -/
def Shadows (tree : SchemaTree) (active : List SchemaId) (part : Walking α) (model : Surveying α) :
    Prop :=
  ∀ survey, ∃ left, (∀ schema ∈ left, tree.IsObject schema) ∧
    part ⟨active, survey⟩ = ended active left (model survey)

namespace Shadows

variable {part : Walking α} {model : Surveying α}

/-- A part that leaves the stack alone. -/
theorem surveying (objects : ∀ schema ∈ active, tree.IsObject schema) :
    Shadows tree active (surveying model) model := by
  intro survey
  refine ⟨active, objects, ?_⟩
  unfold Survey.surveying ended
  rfl

theorem pure {result : α} (objects : ∀ schema ∈ active, tree.IsObject schema) :
    Shadows tree active (Pure.pure result) (Pure.pure result) :=
  fun _ => ⟨active, objects, rfl⟩

theorem throw {fault : Fault} (objects : ∀ schema ∈ active, tree.IsObject schema) :
    Shadows tree active (throw fault : Walking α) (MonadExcept.throw fault) :=
  fun _ => ⟨active, objects, rfl⟩

/-- One part after the other. -/
theorem bind {next : α → Walking β} {next' : α → Surveying β} (shadows : Shadows tree active part model)
    (shadows' : ∀ result, Shadows tree active (next result) (next' result)) :
    Shadows tree active (part >>= next) (model >>= next') := by
  intro survey
  obtain ⟨left, objects, same⟩ := shadows survey
  simp only [Bind.bind, EStateM.bind, same]
  cases model survey with
  | error fault last => exact ⟨left, objects, rfl⟩
  | ok result last => exact shadows' result last

/-- A part for each item of a list. -/
theorem forM {items : List β} {round : β → Walking Unit} {round' : β → Surveying Unit}
    (objects : ∀ schema ∈ active, tree.IsObject schema)
    (shadows : ∀ item ∈ items, Shadows tree active (round item) (round' item)) :
    Shadows tree active (items.forM round) (items.forM round') := by
  induction items with
  | nil => exact pure objects
  | cons item rest ih =>
    rw [List.forM, List.forM]
    exact (shadows item List.mem_cons_self).bind fun _ =>
      ih fun other member => shadows other (List.mem_cons_of_mem _ member)

/-- A part that begins with a look at what was gathered. -/
theorem look {next : Walk → Walking α} {next' : Survey → Surveying α}
    (shadows : ∀ survey, Shadows tree active (next ⟨active, survey⟩) (next' survey)) :
    Shadows tree active (get >>= next) (get >>= next') :=
  fun survey => shadows survey survey

/-- A part that begins with a look at the stack. -/
theorem lookAside {next : Walk → Walking α}
    (shadows : ∀ survey, Shadows tree active (next ⟨active, survey⟩) model) :
    Shadows tree active (get >>= next) model :=
  fun survey => shadows survey survey

/-- A part that is done with one more schema object on the stack, which is taken off again. -/
theorem within {schema : SchemaId} {part : Walking Unit} {model : Surveying Unit}
    (shadows : Shadows tree (schema :: active) part model) :
    Shadows tree active
      (do
        modify fun walk => { walk with active := schema :: walk.active }
        part
        modify fun walk => { walk with active := walk.active.tail })
      model := by
  intro survey
  -- The part runs with the longer stack and ends with some of it left.
  obtain ⟨left, objects, same⟩ := shadows survey
  have entered : (modify fun walk => { walk with active := schema :: walk.active } : Walking PUnit)
      ⟨active, survey⟩ = .ok ⟨⟩ ⟨schema :: active, survey⟩ := rfl
  refine ⟨left, objects, ?_⟩
  -- The last change takes the schema off the stack again.
  simp only [Bind.bind, EStateM.bind, entered, same]
  cases model survey <;> rfl

end Shadows

/-- The form of a nullable value is one of its branches. -/
theorem mem_of_nullableForm? {branches : List SchemaId} {branch : SchemaId}
    (form : nullableForm? tree branches = some branch) : branch ∈ branches := by
  unfold nullableForm? at form
  split at form
  · -- One of the two branches only admits null, and the other one is the form.
    split_ifs at form
    · cases form
      exact List.mem_cons_of_mem _ List.mem_cons_self
    · cases form
      exact List.mem_cons_self
  · cases form

section

variable {visit : SchemaId → RecordId → Walking Unit} {visit' : SchemaId → RecordId → Surveying Unit}
variable {id : RecordId}

/-- Branches are opened alike. -/
theorem shadows_walkBranches (objects : ∀ schema ∈ active, tree.IsObject schema)
    {branches : List SchemaId}
    (visits : ∀ schema ∈ branches, ∀ id, Shadows tree active (visit schema id) (visit' schema id)) :
    Shadows tree active (walkBranches visit id branches) (addBranches visit' id branches) := by
  refine .forM objects fun branch member => .look fun survey => ?_
  dsimp only
  -- Both look for the branch among those of the record.
  cases (survey.ledger.record id).oneOf.any fun known =>
    (survey.ledger.record known).schema == some branch with
  | true => exact .pure objects
  | false =>
    -- It is made and visited by both, and linked afterwards.
    refine (Shadows.surveying objects).bind fun record => ?_
    exact (visits branch member record).bind fun _ => .surveying objects

/-- Additional properties are settled alike. -/
theorem shadows_walkAdditional (objects : ∀ schema ∈ active, tree.IsObject schema) {schema : SchemaId}
    (visits : ∀ id, Shadows tree active (visit schema id) (visit' schema id)) :
    Shadows tree active (walkAdditional tree visit schema id)
      (mergeAdditional tree visit' schema id) := by
  -- A new record is made and visited in the same way.
  have fresh : Shadows tree active
      (do
        let inner ← surveying (onLedger (·.create (some schema) none))
        surveying (update id fun record => { record with additional := some (.schema inner) })
        visit schema inner)
      (do
        let inner ← onLedger (·.create (some schema) none)
        update id fun record => { record with additional := some (.schema inner) }
        visit' schema inner) := by
    refine (Shadows.surveying objects).bind fun inner => ?_
    exact (Shadows.surveying objects).bind fun _ => visits inner
  refine (Shadows.surveying objects).bind fun held => ?_
  -- What is there already decides first, and then the form of the schema.
  cases held.additional with
  | none =>
    cases (tree.schema schema).body with
    | boolean allowed => cases allowed <;> exact .surveying objects
    | object source clauses => exact fresh
  | some additional =>
    cases additional with
    | forbidden => exact .pure objects
    | allowed =>
      cases (tree.schema schema).body with
      | boolean allowed =>
        cases allowed with
        | true => exact .pure objects
        | false => exact .surveying objects
      | object source clauses => exact fresh
    | schema inner =>
      cases (tree.schema schema).body with
      | boolean allowed =>
        cases allowed with
        | true => exact .pure objects
        | false => exact .surveying objects
      | object source clauses => exact visits inner

/-- A keyword without schemas inside is absorbed alike. -/
theorem shadows_absorb (objects : ∀ schema ∈ active, tree.IsObject schema) (id : RecordId)
    (location : String) (keyword : Keyword) :
    Shadows tree active
      (do
        match (← surveying (record id)).absorb location keyword with
        | .ok merged => surveying (update id fun _ => merged)
        | .error fault => throw fault)
      (do
        match (← record id).absorb location keyword with
        | .ok merged => update id fun _ => merged
        | .error fault => throw fault) := by
  refine (Shadows.surveying objects).bind fun held => ?_
  -- The keyword is absorbed by both or by none.
  cases held.absorb location keyword with
  | ok merged => exact .surveying objects
  | error fault => exact .throw objects

/-- A keyword is merged alike, if the schemas that it leads to are visited alike and a reference to
one of them is kept from being followed alike. -/
theorem shadows_walkKeyword (objects : ∀ schema ∈ active, tree.IsObject schema) {clause : Clause}
    {isBusy : SchemaId → Bool}
    (busy : ∀ schema ∈ clause.keyword.schemas, isBusy schema = true ↔ schema ∈ active)
    (visits : ∀ schema ∈ clause.keyword.schemas, ∀ id,
      Shadows tree active (visit schema id) (visit' schema id)) :
    Shadows tree active (walkKeyword tree visit id clause)
      (mergeClause tree visit' isBusy id clause) := by
  have absorbed := shadows_absorb objects id clause.location clause.keyword
  obtain ⟨location, keyword⟩ := clause
  -- To admit null is the same change on both sides.
  have settled := @Shadows.surveying Unit tree active (update id fun record =>
    { record with nullable := some true }) objects
  unfold walkKeyword mergeClause
  cases keyword with
  | reference text target =>
    refine .lookAside fun survey => ?_
    have same := busy target (List.mem_singleton_self _)
    -- Both sides look whether the target is being visited, each in its own way.
    by_cases visited : target ∈ active
    · simp only [if_pos visited, if_pos (same.mpr visited)]
      exact .pure objects
    · simp only [if_neg visited, if_neg (mt same.mp visited)]
      exact visits target (List.mem_singleton_self _) id
  | allOf branches => exact .forM objects fun branch member => visits branch member id
  -- Alternatives are visited only if one of two admits null.
  | anyOf branches =>
    dsimp only
    cases form : nullableForm? tree branches with
    | some branch => exact (visits branch (mem_of_nullableForm? form) id).bind fun _ => settled
    | none => exact .surveying objects
  | oneOf branches =>
    dsimp only
    cases form : nullableForm? tree branches with
    | some branch => exact (visits branch (mem_of_nullableForm? form) id).bind fun _ => settled
    | none => exact shadows_walkBranches objects visits
  -- The mirror is made or found, and then visited.
  | negation schema =>
    refine (Shadows.surveying objects).bind fun negation => ?_
    exact visits schema (List.mem_singleton_self _) negation
  -- For properties and patterns, each record is made or found, and then visited.
  | properties entries =>
    refine .forM objects fun entry member => (Shadows.surveying objects).bind fun property => ?_
    exact visits entry.2 (List.mem_map_of_mem member) property
  | patternProperties entries =>
    refine .forM objects fun entry member => (Shadows.surveying objects).bind fun _ => ?_
    refine (Shadows.surveying objects).bind fun value => ?_
    exact visits entry.2 (List.mem_map_of_mem member) value
  | additionalProperties schema =>
    exact shadows_walkAdditional objects (visits schema (List.mem_singleton_self _))
  | items schema =>
    refine (Shadows.surveying objects).bind fun items => ?_
    exact visits schema (List.mem_singleton_self _) items
  -- The text is checked by both before it is absorbed.
  | pattern text =>
    refine (Shadows.surveying objects).bind fun _ => ?_
    exact absorbed
  | _ => exact absorbed

end

/-- The schemas of a tree that are not on a stack. -/
def openBeside (tree : SchemaTree) (active : List SchemaId) : List SchemaId :=
  tree.ids.filter (· ∉ active)

/-- A schema that is entered is no longer open. -/
theorem openBeside_cons {schema : SchemaId} :
    openBeside tree (schema :: active) = (openBeside tree active).erase schema := by
  rw [openBeside, openBeside, List.Nodup.erase_eq_filter (SchemaTree.nodup_ids.filter _),
    List.filter_filter]
  refine List.filter_congr fun other _ => ?_
  -- An other schema is neither the one that is entered nor one below it on the stack.
  rw [Bool.eq_iff_iff]
  simp

/-- A schema of the tree is being visited if it is on the stack. -/
theorem isBusy_openBeside (objects : ∀ schema ∈ active, tree.IsObject schema) {schema : SchemaId}
    (held : tree.Holds schema) :
    isBusy tree (openBeside tree active) schema = true ↔ schema ∈ active := by
  unfold isBusy
  split
  · -- Only objects are put on the stack.
    rename_i boolean
    refine ⟨fun busy => absurd busy Bool.false_ne_true, fun visited => ?_⟩
    obtain ⟨source, clauses, object⟩ := objects schema visited
    rw [boolean] at object
    cases object
  · simp [openBeside, SchemaTree.mem_ids, held]

/-- A walk that may go deeper than there are schemas off the stack does what a survey does. -/
theorem shadows_walk (linked : tree.Linked) {depth : Nat}
    (objects : ∀ schema ∈ active, tree.IsObject schema)
    (deep : (openBeside tree active).length < depth) {schema : SchemaId} (held : tree.Holds schema)
    (id : RecordId) :
    Shadows tree active (walk tree beyond stray depth schema id)
      (visit tree (openBeside tree active) schema id) := by
  -- The allowance for depth is used up by one with every visit.
  induction depth generalizing active schema id with
  | zero => exact absurd deep (Nat.not_lt_zero _)
  | succ depth ih =>
    -- Nothing outside the tree is looked at, because its keywords stay inside it.
    have inside : ∀ other ∈ schema :: (tree.schema schema).clauses.flatMap (·.keyword.schemas),
        tree.Holds other := by
      intro other member
      rcases List.mem_cons.mp member with rfl | member
      · exact held
      · obtain ⟨clause, stated, leads⟩ := List.mem_flatMap.mp member
        exact linked schema clause stated other leads
    rw [walk, visit, lookingAt, if_pos inside]
    refine (Shadows.surveying objects).bind fun _ => ?_
    -- A boolean schema is left at once.
    cases body : (tree.schema schema).body with
    | boolean value => exact .surveying objects
    | object source clauses =>
      refine .lookAside fun survey => ?_
      have opened : schema ∈ openBeside tree active ↔ schema ∉ active := by
        simp [openBeside, SchemaTree.mem_ids, held]
      -- A schema that is on the stack is not entered, and neither is one that is not open.
      by_cases visited : schema ∈ active
      · simp only [if_pos visited, dif_neg (mt opened.mp (not_not.mpr visited))]
        exact .pure objects
      · have isOpen := opened.mpr visited
        simp only [if_neg visited, dif_pos isOpen, ← openBeside_cons]
        -- With the schema on the stack there is one schema less to enter, and one visit less to go.
        have objects' : ∀ other ∈ schema :: active, tree.IsObject other := by
          intro other member
          rcases List.mem_cons.mp member with rfl | member
          · exact ⟨source, clauses, body⟩
          · exact objects other member
        have deep' : (openBeside tree (schema :: active)).length < depth := by
          have shorter := length_erase_lt isOpen
          rw [openBeside_cons]
          omega
        have parts : Shadows tree (schema :: active)
            (do
              surveying (noteTitles (tree.schema schema) id)
              clauses.forM fun clause => walkKeyword tree (walk tree beyond stray depth) id clause
              surveying (checkExamples (tree.location schema) source))
            (do
              noteTitles (tree.schema schema) id
              clauses.forM fun clause =>
                mergeClause tree (visit tree (openBeside tree (schema :: active)))
                  (isBusy tree (openBeside tree (schema :: active))) id clause
              checkExamples (tree.location schema) source) := by
          -- The keywords come between titles and examples, and each leads to schemas of the tree.
          refine (Shadows.surveying objects').bind fun _ => ?_
          refine (Shadows.forM objects' fun clause stated => ?_).bind fun _ => .surveying objects'
          have leads (other : SchemaId) (member : other ∈ clause.keyword.schemas) :
              tree.Holds other := by
            refine linked schema clause ?_ other member
            rw [Schema.clauses, body]
            exact stated
          exact shadows_walkKeyword objects'
            (fun other member => isBusy_openBeside objects' (leads other member))
            fun other member id => ih objects' deep' (leads other member) id
        simpa only [bind_assoc] using parts.within

/-- There are at most as many schemas off a stack as there are schemas. -/
theorem length_openBeside : (openBeside tree active).length ≤ tree.schemas.size := by
  refine (List.length_filter_le _ _).trans ?_
  rw [SchemaTree.ids, List.length_map, List.length_range]

/-- In every tree that is read, a walk of any schema or keyword into any record ends: the recursion
goes at most one visit deeper than there are schemas, so what lies beyond does not matter. It looks at
no schema outside the tree, so it does not matter either what would happen there. It gathers what the
survey gathers, and on success it leaves the stack as it was. -/
theorem ends_walk (sources : List SourceDocument) :
    Ends (readRoots sources) {}
      (fun _ tree => ∀ (beyond stray : Walking Unit) (depth : Nat), tree.schemas.size < depth →
        ∀ start : Walk, (∀ schema ∈ start.active, tree.IsObject schema) →
        ∀ schema : SchemaId, schema.index < tree.schemas.size → ∀ id : RecordId,
          (∃ left, (∀ other ∈ left, tree.IsObject other) ∧
            walk tree beyond stray depth schema id start =
              ended start.active left
                (visit tree (openBeside tree start.active) schema id start.survey)) ∧
          ∀ clause ∈ (tree.schema schema).clauses,
            ∃ left, (∀ other ∈ left, tree.IsObject other) ∧
              lookingAt tree stray clause.keyword.schemas
                  (walkKeyword tree (walk tree beyond stray depth) id clause) start =
                ended start.active left
                  (mergeClause tree (visit tree (openBeside tree start.active))
                    (isBusy tree (openBeside tree start.active)) id clause start.survey))
      (fun _ => True) := by
  refine (linked_readRoots sources).mono fun _ tree linked => ?_
  intro beyond stray depth deep start objects schema held id
  -- A walk enters open schemas only and closes each, so their number bounds its depth.
  have deep' : (openBeside tree start.active).length < depth :=
    Nat.lt_of_le_of_lt length_openBeside deep
  refine ⟨shadows_walk linked objects deep' held id start.survey, fun clause stated => ?_⟩
  -- The schemas of a keyword lie in the tree.
  have leads := linked schema clause stated
  rw [lookingAt, if_pos leads]
  exact shadows_walkKeyword objects
    (fun other member => isBusy_openBeside objects (leads other member))
    (fun other member id => shadows_walk linked objects deep' (leads other member) id) start.survey

end Survey

end SchemaClasses
