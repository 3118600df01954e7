import SchemaClasses.Generation
import SchemaClasses.Proofs.Reading.Recursion

/-! Every number that stands in a schema which was read is the number of a schema in the tree. -/

namespace SchemaClasses

/-- The schemas that a keyword leads to. -/
def Keyword.schemas : Keyword → List SchemaId
  | .reference _ target => [target]
  | .properties entries | .patternProperties entries => entries.map (·.2)
  | .additionalProperties schema | .items schema | .negation schema => [schema]
  | .allOf branches | .anyOf branches | .oneOf branches => branches
  | _ => []

namespace SchemaTree

/-- Whether a number is that of a schema in the tree. -/
def Holds (tree : SchemaTree) (id : SchemaId) : Prop := id.index < tree.schemas.size

instance (tree : SchemaTree) (id : SchemaId) : Decidable (tree.Holds id) :=
  inferInstanceAs (Decidable (id.index < tree.schemas.size))

/-- Whether all keywords of a tree lead to schemas in it. -/
def Linked (tree : SchemaTree) : Prop :=
  ∀ id : SchemaId, ∀ clause ∈ (tree.schema id).clauses, ∀ inner ∈ clause.keyword.schemas,
    tree.Holds inner

variable {tree : SchemaTree} {id : SchemaId} {location : String}

/-- The schemas of a tree are those that it holds. -/
theorem mem_ids : id ∈ tree.ids ↔ tree.Holds id := by
  rw [ids, List.mem_map, Holds]
  constructor
  · rintro ⟨index, inside, rfl⟩
    exact List.mem_range.mp inside
  · exact fun inside => ⟨id.index, List.mem_range.mpr inside, rfl⟩

/-- No schema is counted twice. -/
theorem nodup_ids : tree.ids.Nodup :=
  List.nodup_range.map fun _ _ same => congrArg SchemaId.index same

theorem Linked.empty : Linked {} := by
  intro id clause member
  rw [schema_of_size_le (Nat.zero_le _)] at member
  exact absurd member List.not_mem_nil

/-- A reserved schema states nothing yet. -/
theorem Linked.reserve (linked : tree.Linked) : (tree.reserve location).2.Linked := by
  intro id clause member inner leads
  have inside : inner.index < tree.schemas.size := by
    rw [schema_reserve] at member
    split at member
    · exact absurd member List.not_mem_nil
    · exact linked id clause member inner leads
  rw [Holds, size_reserve]
  exact Nat.lt_succ_of_lt inside

/-- A schema is completed with keywords that lead to schemas in the tree. -/
theorem Linked.complete (linked : tree.Linked) {body : SchemaBody}
    (leads : ∀ clause ∈ ({ location, body } : Schema).clauses, ∀ inner ∈ clause.keyword.schemas,
      tree.Holds inner) : (tree.complete id body).Linked := by
  intro other clause member inner leads'
  rw [Holds, size_complete]
  rw [schema_complete] at member
  split at member
  · exact leads clause member inner leads'
  · exact linked other clause member inner leads'

end SchemaTree

namespace Reading

variable {α β : Type}

/-- A run of reading that keeps all keywords inside the tree, and leads to schemas in it. -/
def Leads (schemas : α → List SchemaId) (step : Reading α) : Prop :=
  ∀ tree : SchemaTree, tree.Linked →
    Ends step tree
      (fun result last => last.Linked ∧ tree.schemas.size ≤ last.schemas.size ∧
        ∀ id ∈ schemas result, last.Holds id)
      (fun _ => True)

namespace Leads

variable {schemas : α → List SchemaId} {step : Reading α}

/-- A result that leads nowhere. -/
theorem pure {result : α} (none : schemas result = []) : Leads schemas (Pure.pure result) := by
  intro tree linked
  refine ⟨linked, Nat.le_refl _, fun id member => ?_⟩
  rw [none] at member
  exact absurd member List.not_mem_nil

theorem throw {fault : Fault} : Leads schemas (throw fault : Reading α) := fun _ _ => trivial

/-- What a result leads to is what the results before it led to, which are still in the tree. -/
theorem bind {schemas' : β → List SchemaId} {next : α → Reading β} (leads : Leads schemas step)
    (leads' : ∀ result, ∀ tree : SchemaTree, tree.Linked → (∀ id ∈ schemas result, tree.Holds id) →
      Ends (next result) tree
        (fun result' last => last.Linked ∧ tree.schemas.size ≤ last.schemas.size ∧
          ∀ id ∈ schemas' result', last.Holds id)
        (fun _ => True)) :
    Leads schemas' (step >>= next) := by
  intro tree linked
  rw [ends_bind]
  -- The second step starts in the tree that the first one has left, where its result is still held.
  refine (leads tree linked).mono fun result middle ⟨linked', grown, held⟩ => ?_
  refine (leads' result middle linked' held).mono fun result' last further => ?_
  exact ⟨further.1, Nat.le_trans grown further.2.1, further.2.2⟩

/-- A result made of another one leads nowhere else. -/
theorem map {schemas' : β → List SchemaId} {make : α → β} (leads : Leads schemas step)
    (same : ∀ result, schemas' (make result) ⊆ schemas result) :
    Leads schemas' (do return make (← step)) :=
  leads.bind fun result _ linked held =>
    ⟨linked, Nat.le_refl _, fun id member => held id (same result member)⟩

/-- A result made of two others leads where they do. -/
theorem map₂ {γ : Type} {schemas' : β → List SchemaId} {made : γ → List SchemaId}
    {next : Reading β} {make : α → β → γ} (leads : Leads schemas step) (leads' : Leads schemas' next)
    (same : ∀ result result', made (make result result') ⊆ schemas result ++ schemas' result') :
    Leads made (do
      let result ← step
      let result' ← next
      return make result result') := by
  refine leads.bind fun result tree linked held => ?_
  rw [ends_bind]
  refine (leads' tree linked).mono fun result' last ⟨linked', grown, held'⟩ => ?_
  refine ⟨linked', grown, fun id member => ?_⟩
  -- What the first result leads to is still in the tree, which only grew.
  rcases List.mem_append.mp (same result result' member) with first | second
  · exact Nat.lt_of_lt_of_le (held id first) grown
  · exact held' id second

end Leads

variable {documents : Documents} {follow : Place → Reading SchemaId} {place : Place}

/-- A schema that is known is in the tree. -/
theorem leads_unlessKnown {step : Reading SchemaId} (leads : Leads (fun id => [id]) step) :
    Leads (fun id => [id]) (do
      if let some id ← known? place then return id
      step) := by
  intro tree linked
  refine Closes.ends ?_
  rw [closes_bind, closes_known?]
  -- A schema that is found under its place is one of the tree.
  cases found : tree.find? place.location with
  | none => exact leads tree linked
  | some id =>
    refine ⟨linked, Nat.le_refl _, fun other member => ?_⟩
    rw [List.mem_singleton.mp member]
    exact (SchemaTree.find?_eq_some.mp found).1

/-- A schema joins, what stands in it is read, and it is completed with that. -/
theorem leads_object {parts : Reading α} {schemas : α → List SchemaId} {body : α → SchemaBody}
    (leads : Leads schemas parts)
    (same : ∀ result, ∀ clause ∈ ({ location := "", body := body result } : Schema).clauses,
      clause.keyword.schemas ⊆ schemas result) :
    Leads (fun id => [id]) (do
      let id ← reserve place
      let found ← parts
      modify fun tree => tree.complete id (body found)
      return id) := by
  intro tree linked
  rw [ends_bind]
  -- Reserving adds an empty schema, which leads nowhere as long as it is not completed.
  show Ends _ (tree.reserve place.location).2 _ _
  rw [ends_bind]
  refine (leads _ linked.reserve).mono fun found last ⟨linked', grown, held⟩ => ?_
  rw [SchemaTree.size_reserve] at grown
  rw [ends_bind, ends_modify, ends_pure]
  -- The completed schema leads where its parts do, and these are in the tree by then.
  refine ⟨linked'.complete fun clause member inner inside =>
    held inner (same found clause member inside), ?_, fun other member => ?_⟩
  · rw [SchemaTree.size_complete]
    omega
  · rw [List.mem_singleton.mp member, SchemaTree.Holds, SchemaTree.size_complete]
    exact grown

/-- A keyword around one schema leads to it. -/
theorem schemas_of_nesting_schema {key : String} {value : Json} {made : SchemaId → Keyword}
    (nested : nesting key value = .schema made) (id : SchemaId) : (made id).schemas = [id] := by
  unfold nesting at nested
  split at nested
  all_goals cases nested
  all_goals rfl

/-- A keyword around a list of schemas leads to each of them. -/
theorem schemas_of_nesting_schemas {key : String} {value : Json} {made : List SchemaId → Keyword}
    (nested : nesting key value = .schemas made) (ids : List SchemaId) : (made ids).schemas = ids := by
  unfold nesting at nested
  split at nested
  all_goals cases nested
  all_goals rfl

/-- A keyword around a table of schemas leads to each of them. -/
theorem schemas_of_nesting_table {key : String} {value : Json}
    {made : List (String × SchemaId) → Keyword} (nested : nesting key value = .table made)
    (entries : List (String × SchemaId)) : (made entries).schemas = entries.map (·.2) := by
  unfold nesting at nested
  split at nested
  all_goals cases nested
  all_goals rfl

/-- Whether a keyword that is read, if any, leads nowhere. -/
def Childless (result : Except Fault (Option Keyword)) : Prop :=
  ∀ keyword, result = .ok (some keyword) → keyword.schemas = []

/-- A keyword around something that is no schema leads nowhere. -/
theorem childless_bind {step : Except Fault α} {make : α → Keyword}
    (none : ∀ held, (make held).schemas = []) : Childless (do return some (make (← step))) := by
  intro keyword read
  cases step with
  | error fault => cases read
  | ok held =>
    cases read
    exact none held

/-- A bound leads nowhere. -/
theorem childless_sideBound {location exclusiveKey : String} {siblings : List (String × Json)}
    {side : Side} {value : Json} :
    Childless (sideBound location siblings side exclusiveKey value) :=
  childless_bind fun _ => rfl

/-- A bound that excludes its value, or none, leads nowhere. -/
theorem childless_exclusiveBound {location : String} {side : Side} {value : Json} :
    Childless (exclusiveBound location side value) := by
  unfold exclusiveBound
  split
  · exact fun keyword read => nomatch read
  · exact childless_bind fun _ => rfl

/-- A keyword without schemas inside leads nowhere. -/
theorem childless_plainKeyword {location key : String} {siblings : List (String × Json)}
    {value : Json} : Childless (plainKeyword location siblings key value) := by
  unfold plainKeyword
  split
  case h_7 | h_8 => exact childless_sideBound
  case h_9 | h_10 => exact childless_exclusiveBound
  -- These hold what was read of their value, unless it is refused.
  case h_1 | h_5 | h_6 | h_11 | h_12 | h_13 | h_14 | h_15 | h_16 | h_17 | h_24 =>
    exact childless_bind fun _ => rfl
  case h_27 =>
    -- Only extensions are taken from what is not recognised.
    intro keyword read
    dsimp only at read
    split at read
    · cases read
      rfl
    · cases read
  -- All others hold their value as it is, or are refused or left out.
  all_goals
    intro keyword read
    cases read <;> rfl

/-- A reference leads to the schema that is followed. -/
theorem leads_reference {place : Place} {value : Json}
    (leads : ∀ target, Leads (fun id => [id]) (follow target)) :
    Leads (·.schemas) (reference documents follow place value) := by
  unfold reference
  -- Only a text that can be resolved is followed.
  cases value with
  | string text =>
    cases found : documents.resolve? place.document text with
    | none =>
      simp only [found]
      exact .throw
    | some target =>
      simp only [found]
      exact (leads target).map fun _ => List.Subset.refl _
  | _ => exact .throw

/-- A keyword without schemas inside leads nowhere, and leaves the tree as it is. -/
theorem leads_plain {place : Place} {siblings : List (String × Json)} {key : String} {value : Json}
    (plain : nesting key value = .none) (direct : key ≠ "$ref") :
    Leads (fun found => found.elim [] (·.schemas)) (keyword documents follow place siblings key value) := by
  rw [keyword_of_plain plain direct]
  intro tree linked
  refine Closes.ends ?_
  rw [closes_liftExcept]
  -- What is read from the value alone touches no tree.
  cases read : plainKeyword (place.member key).location siblings key value with
  | error _ => trivial
  | ok found =>
    refine ⟨linked, Nat.le_refl _, fun id member => ?_⟩
    cases found with
    | none => exact absurd member List.not_mem_nil
    | some keyword =>
      dsimp only at member
      rw [Option.elim_some, childless_plainKeyword keyword read] at member
      exact absurd member List.not_mem_nil

/-- Whatever is read leads to schemas in the tree, if references do. -/
theorem leads_schema (leads : ∀ target, Leads (fun id => [id]) (follow target)) :
    (∀ place value, Leads (fun id => [id]) (schema documents follow place value)) ∧
      ∀ place siblings members, Leads (fun found => found.flatMap (·.keyword.schemas))
        (clauses documents follow place siblings members) := by
  -- The parts of a schema are read one inside the other, so the induction follows them.
  refine parts_induction
    (fun place siblings key value => Leads (fun found => found.elim [] (·.schemas))
      (keyword documents follow place siblings key value))
    (fun place members => Leads (fun found => found.map (·.2)) (entries documents follow place members))
    (fun place index items => Leads id (branches documents follow place index items))
    ?boolean ?object ?other ?noMembers ?members ?invalid ?nested ?branches ?table ?reference ?plain
    ?noEntries ?entries ?noItems ?items
  case boolean =>
    intro place value
    rw [schema]
    -- A boolean schema is completed without any part.
    have none : Leads (fun _ => []) (pure () : Reading Unit) := .pure rfl
    exact leads_unlessKnown (@leads_object _ place _ _ (fun _ => .boolean value) none
      fun _ _ member => absurd member List.not_mem_nil)
  case object =>
    intro place members inner
    rw [schema]
    refine leads_unlessKnown (leads_object inner fun found clause member id inside => ?_)
    exact List.mem_flatMap.mpr ⟨clause, member, inside⟩
  case other =>
    intro place value notBool notObject
    rw [schema]
    · exact leads_unlessKnown .throw
    all_goals assumption
  case noMembers => exact fun _ _ => .pure rfl
  case members =>
    intro place siblings key value rest first others
    rw [clauses_cons]
    refine first.map₂ others fun found found' id member => ?_
    -- A member that is not recognised adds no clause, and so no schema.
    cases found with
    | none => simpa using member
    | some keyword => simpa using member
  case invalid =>
    intro place siblings key value problem nested
    rw [keyword_of_invalid nested]
    exact .throw
  case nested =>
    intro place siblings key value made nested inner
    rw [keyword_of_schema nested]
    refine inner.map fun found => ?_
    -- The keyword that is made holds the schema that was read.
    rw [Option.elim_some, schemas_of_nesting_schema nested]
    exact List.Subset.refl _
  case branches =>
    intro place siblings key items made nested inner
    rw [keyword_of_schemas nested]
    refine inner.map fun found => ?_
    -- The keyword that is made holds the schemas that were read.
    rw [Option.elim_some, schemas_of_nesting_schemas nested]
    exact List.Subset.refl _
  case table =>
    intro place siblings key entries made nested inner
    rw [keyword_of_table nested]
    refine inner.map fun found => ?_
    -- The keyword that is made holds the schemas that were read.
    rw [Option.elim_some, schemas_of_nesting_table nested]
    exact List.Subset.refl _
  case reference =>
    intro place siblings value
    rw [keyword_reference, ← bind_pure_comp]
    exact (leads_reference leads).map fun _ => List.Subset.refl _
  case plain => exact fun place siblings key value => leads_plain
  case noEntries => exact fun _ => .pure rfl
  case entries =>
    intro place name value rest first others
    rw [entries]
    exact first.map₂ others fun _ _ => List.Subset.refl _
  case noItems => exact fun _ _ => .pure rfl
  case items =>
    intro place index item rest first others
    rw [branches]
    exact first.map₂ others fun _ _ => List.Subset.refl _

/-- Following a reference leads to a schema in the tree. -/
theorem leads_follow (pending : List Place) (place : Place) :
    Leads (fun id => [id]) (Reading.follow documents pending place) := by
  -- Inside, fewer places are pending, so the induction is on their number.
  induction size : pending.length using Nat.strong_induction_on generalizing pending place with
  | _ size ih =>
    subst size
    rw [Reading.follow]
    refine leads_unlessKnown ?_
    -- Only a pending place is followed, and fewer are pending inside.
    split
    · split
      · rename_i waiting
        exact (leads_schema fun target => ih _ (length_erase_lt waiting) _ target rfl).1 _ _
      · exact .throw
    · exact .throw

end Reading

/-- The tree of all documents leads nowhere outside itself. -/
theorem linked_readRoots (sources : List SourceDocument) :
    Ends (readRoots sources) {} (fun _ tree => tree.Linked) (fun _ => True) := by
  -- The root of a document is followed, if it is named at all.
  have root (documents : Documents) (uri : String) :
      Reading.Leads (fun id => [id]) (documents.root uri) := by
    unfold Documents.root
    split
    · exact Reading.leads_follow _ _
    · exact .throw
  -- Where the roots lead that were read before stays in the tree when another one is read.
  have all (documents : Documents) (inputs : List (String × List String)) :
      Reading.Leads (fun roots => roots.map (·.schema)) (inputs.mapM fun input => do
        return (⟨input.1, input.2, ← documents.root input.1⟩ : RootSchema)) := by
    induction inputs with
    | nil => exact .pure rfl
    | cons input others ih =>
      rw [List.mapM_cons]
      have first : Reading.Leads (fun root : RootSchema => [root.schema]) (do
          return ⟨input.1, input.2, ← documents.root input.1⟩) :=
        (root documents input.1).map fun _ => List.Subset.refl _
      exact first.map₂ ih fun _ _ => List.Subset.refl _
  exact (all _ _ {} .empty).mono fun _ _ held => held.1

end SchemaClasses
