import SchemaClasses.Proofs.Reading.Reach
import SchemaClasses.Proofs.Reading.Trees

/-! Reading as a recursion: what one member contributes, that trees only grow, and that the list of
pending places bounds the recursion without ever cutting it short. -/

namespace SchemaClasses

namespace Reading

section

variable {documents : Documents} {follow : Place → Reading SchemaId} {place : Place}
variable {siblings : List (String × Json)} {key : String} {value : Json}

/-- The keyword that one member of a schema object becomes. -/
def keyword (documents : Documents) (follow : Place → Reading SchemaId) (place : Place)
    (siblings : List (String × Json)) (key : String) (value : Json) : Reading (Option Keyword) :=
  match nesting key value, value with
  | .invalid problem, _ => throw (.invalidSchema (place.member key).location problem)
  | .schema keyword, value => do
    return some (keyword (← schema documents follow (place.member key) value))
  | .schemas keyword, .array items => do
    return some (keyword (← branches documents follow (place.member key) 0 items))
  | .table keyword, .object members => do
    return some (keyword (← entries documents follow (place.member key) members))
  | _, value =>
    if key == "$ref" then some <$> reference documents follow (place.member key) value
    else liftExcept (plainKeyword (place.member key).location siblings key value)

/-- The keywords of members are those of the first one and those of the others. -/
theorem clauses_cons {rest : List (String × Json)} :
    clauses documents follow place siblings ((key, value) :: rest) = do
      let found ← keyword documents follow place siblings key value
      let others ← clauses documents follow place siblings rest
      return (found.map (Clause.mk (place.member key).location)).toList ++ others := by
  rw [clauses.eq_def]
  unfold keyword
  dsimp only
  generalize nesting key value = way
  -- Both sides read the value in the same of the ways in which schemas lie inside it.
  cases way with
  | invalid problem => rfl
  | schema keyword => simp only [bind_assoc, pure_bind]
  | none => dsimp only; split <;> rfl
  | schemas keyword =>
    cases value with
    | array items => simp only [bind_assoc, pure_bind]
    | _ => dsimp only; split <;> rfl
  | table keyword =>
    cases value with
    | object members => simp only [bind_assoc, pure_bind]
    | _ => dsimp only; split <;> rfl

/-- An invalid member is refused. -/
theorem keyword_of_invalid {problem : SchemaProblem} (nested : nesting key value = .invalid problem) :
    keyword documents follow place siblings key value =
      throw (.invalidSchema (place.member key).location problem) := by
  unfold keyword
  rw [nested]

theorem keyword_of_schema {made : SchemaId → Keyword} (nested : nesting key value = .schema made) :
    keyword documents follow place siblings key value = do
      return some (made (← schema documents follow (place.member key) value)) := by
  unfold keyword
  rw [nested]

theorem keyword_of_schemas {made : List SchemaId → Keyword} {items : List Json}
    (nested : nesting key (.array items) = .schemas made) :
    keyword documents follow place siblings key (.array items) = do
      return some (made (← branches documents follow (place.member key) 0 items)) := by
  unfold keyword
  rw [nested]

theorem keyword_of_table {made : List (String × SchemaId) → Keyword} {members : List (String × Json)}
    (nested : nesting key (.object members) = .table made) :
    keyword documents follow place siblings key (.object members) = do
      return some (made (← entries documents follow (place.member key) members)) := by
  unfold keyword
  rw [nested]

/-- A reference is followed. -/
theorem keyword_reference :
    keyword documents follow place siblings "$ref" value =
      some <$> reference documents follow (place.member "$ref") value := rfl

theorem keyword_of_plain (plain : nesting key value = .none) (direct : key ≠ "$ref") :
    keyword documents follow place siblings key value =
      liftExcept (plainKeyword (place.member key).location siblings key value) := by
  unfold keyword
  rw [plain]
  exact if_neg (by simpa using direct)

end

/-- What the parts of a schema hand on to it holds of all schemas, and of their members. -/
theorem parts_induction {ofSchema : Place → Json → Prop}
    {ofMembers : Place → List (String × Json) → List (String × Json) → Prop}
    (ofMember : Place → List (String × Json) → String → Json → Prop)
    (ofEntries : Place → List (String × Json) → Prop) (ofItems : Place → Nat → List Json → Prop)
    (boolean : ∀ place value, ofSchema place (.bool value))
    (object : ∀ place members, ofMembers place members members → ofSchema place (.object members))
    (other : ∀ place value, (∀ held, value ≠ .bool held) → (∀ members, value ≠ .object members) →
      ofSchema place value)
    (noMembers : ∀ place siblings, ofMembers place siblings [])
    (members : ∀ place siblings key value rest, ofMember place siblings key value →
      ofMembers place siblings rest → ofMembers place siblings ((key, value) :: rest))
    (invalid : ∀ place siblings key value problem, nesting key value = .invalid problem →
      ofMember place siblings key value)
    (nested : ∀ place siblings key value keyword, nesting key value = .schema keyword →
      ofSchema (place.member key) value → ofMember place siblings key value)
    (branches : ∀ place siblings key items keyword, nesting key (.array items) = .schemas keyword →
      ofItems (place.member key) 0 items → ofMember place siblings key (.array items))
    (table : ∀ place siblings key entries keyword, nesting key (.object entries) = .table keyword →
      ofEntries (place.member key) entries → ofMember place siblings key (.object entries))
    (reference : ∀ place siblings value, ofMember place siblings "$ref" value)
    (plain : ∀ place siblings key value, nesting key value = .none → key ≠ "$ref" →
      ofMember place siblings key value)
    (noEntries : ∀ place, ofEntries place [])
    (entries : ∀ place name value rest, ofSchema (place.member name) value → ofEntries place rest →
      ofEntries place ((name, value) :: rest))
    (noItems : ∀ place index, ofItems place index [])
    (items : ∀ place index item rest, ofSchema (place.item index) item →
      ofItems place (index + 1) rest → ofItems place index (item :: rest))
    : (∀ place value, ofSchema place value) ∧
      ∀ place siblings list, ofMembers place siblings list := by
  -- Reading goes through the parts in the same way, whatever it does with references.
  -- The parts have to be those of every `follow`, so the one that is put in does not matter.
  have all := schema.mutual_induct {} (fun _ => pure default) ofSchema ofMembers ofEntries ofItems
    boolean object
    (fun place value notBool notObject =>
      other place value (fun held same => notBool held same) fun members same =>
        notObject members same)
    noItems items noMembers
    (fun place siblings key value rest problem held =>
      members place siblings key value rest (invalid place siblings key value problem held))
    (fun place siblings key rest keyword value held others inner =>
      members place siblings key value rest (nested place siblings key value keyword held inner) others)
    (fun place siblings key rest keyword list held others inner =>
      members place siblings key _ rest (branches place siblings key list keyword held inner) others)
    (fun place siblings key rest keyword list held others inner =>
      members place siblings key _ rest (table place siblings key list keyword held inner) others)
    (fun place siblings key rest value direct _ _ _ _ others => by
      have direct : key = "$ref" := eq_of_beq direct
      subst direct
      exact members place siblings _ value rest (reference place siblings value) others)
    (fun place siblings key rest value direct notInvalid notSchema notSchemas notTable others =>
      members place siblings key value rest
        (plain place siblings key value (nesting_eq_none notInvalid notSchema notSchemas notTable)
          (by simpa using direct)) others)
    noEntries entries
  exact ⟨all.1, all.2.1⟩

section

variable {α β : Type} {documents : Documents} {place : Place} {value : Json} {start : SchemaTree}
variable {holds : SchemaTree → Prop}

@[simp] theorem closes_known? {done : Option SchemaId → SchemaTree → Prop}
    {failed : Fault → SchemaTree → Prop} :
    Closes (known? place) start done failed ↔ done (start.find? place.location) start := Iff.rfl

@[simp] theorem closes_reserve {done : SchemaId → SchemaTree → Prop}
    {failed : Fault → SchemaTree → Prop} :
    Closes (reserve place) start done failed ↔
      done ⟨start.schemas.size⟩ (start.reserve place.location).2 := Iff.rfl

/-- A result alone, or a fault alone, leaves the tree as it was. -/
theorem closes_liftExcept {result : Except Fault α} {done : α → SchemaTree → Prop}
    {failed : Fault → SchemaTree → Prop} :
    Closes (liftExcept result : Reading α) start done failed ↔
      match result with
      | .ok result => done result start
      | .error fault => failed fault start := by
  cases result <;> rfl

/-- What a schema that is already known is for is not read again. -/
theorem unlessKnown_apply {step : Reading SchemaId} :
    (do
      if let some id ← known? place then return id
      step : Reading SchemaId) start =
      match start.find? place.location with
      | some id => .ok id start
      | none => step start := by
  have known : known? place start = .ok (start.find? place.location) start := rfl
  -- Looking up does not change the tree, so both sides start from it.
  simp only [Bind.bind, EStateM.bind, known]
  cases start.find? place.location <;> rfl

/-- What holds of a tree however many schemas join it or are completed. -/
structure Endures (holds : SchemaTree → Prop) : Prop where
  reserve : ∀ {tree location}, holds tree → holds (tree.reserve location).2
  complete : ∀ {tree id body}, holds tree → holds (tree.complete id body)

/-- What is known stays known. -/
theorem endures_known {location : String} :
    Endures fun tree => (tree.find? location).isSome = true where
  reserve known := by
    obtain ⟨id, known⟩ := Option.isSome_iff_exists.mp known
    rw [SchemaTree.Continues.reserve.find? known]
    rfl
  complete known := by simpa using known

/-- Two runs that do the same from all trees of a kind, and lead to trees of that kind. -/
structure Agrees (holds : SchemaTree → Prop) (step step' : Reading α) : Prop where
  keeps : Keeps holds (fun _ => True) step
  same : ∀ tree, holds tree → step tree = step' tree

/-- A run agrees with itself. -/
theorem Agrees.refl {step : Reading α} (keeps : Keeps holds (fun _ => True) step) :
    Agrees holds step step := ⟨keeps, fun _ _ => rfl⟩

theorem Agrees.pure {result : α} : Agrees holds (Pure.pure result) (Pure.pure result) :=
  .refl .pure

theorem Agrees.throw {fault : Fault} :
    Agrees holds (throw fault : Reading α) (MonadExcept.throw fault) :=
  .refl fun _ held => ⟨held, trivial⟩

/-- One run after the other. -/
theorem Agrees.bind {step step' : Reading α} {next next' : α → Reading β}
    (agrees : Agrees holds step step') (agrees' : ∀ result, Agrees holds (next result) (next' result)) :
    Agrees holds (step >>= next) (step' >>= next') := by
  refine ⟨agrees.keeps.bind fun result => (agrees' result).keeps, fun tree held => ?_⟩
  have kept := agrees.keeps tree held
  unfold Closes at kept
  simp only [Bind.bind, EStateM.bind, ← agrees.same tree held]
  -- The first run ends in the same tree on both sides, where the second starts.
  cases ran : step tree with
  | ok result last =>
    rw [ran] at kept
    exact (agrees' result).same last kept
  | error fault last => rfl

/-- What is already known is looked up alike. -/
theorem agrees_unlessKnown {step step' : Reading SchemaId} (agrees : Agrees holds step step') :
    Agrees holds
      (do
        if let some id ← known? place then return id
        step)
      (do
        if let some id ← known? place then return id
        step') := by
  refine ⟨fun tree held => ?_, fun tree held => ?_⟩
  · unfold Closes
    rw [unlessKnown_apply]
    cases tree.find? place.location with
    | some id => exact held
    | none => exact agrees.keeps tree held
  · rw [unlessKnown_apply, unlessKnown_apply, agrees.same tree held]

/-- Schemas are completed alike. -/
theorem agrees_object {parts parts' : Reading α} (body : α → SchemaBody) (endures : Endures holds)
    (agrees : Agrees holds parts parts') :
    Agrees holds
      (do
        let id ← reserve place
        let found ← parts
        modify fun tree => tree.complete id (body found)
        return id)
      (do
        let id ← reserve place
        let found ← parts'
        modify fun tree => tree.complete id (body found)
        return id) := by
  -- The number and the completion depend on the tree alone, and only the parts are read by the two.
  refine Agrees.bind (.refl fun tree held => endures.reserve held) fun id => ?_
  refine agrees.bind fun found => Agrees.bind (.refl fun tree held => endures.complete held) fun _ => ?_
  exact .pure

/-- References are read alike: the text stands in the documents, so that its target is one of those which
are followed alike. -/
theorem agrees_reference {follow follow' : Place → Reading SchemaId}
    (agrees : ∀ target ∈ documents.targets, Agrees holds (follow target) (follow' target))
    (lists : documents.Lists place.document (.object [("$ref", value)])) :
    Agrees holds (reference documents follow (place.member "$ref") value)
      (reference documents follow' (place.member "$ref") value) := by
  unfold reference
  cases value with
  | string text =>
    -- A reference that leads nowhere is refused on both sides.
    cases found : documents.resolve? (place.member "$ref").document text with
    | none =>
      simp only [found]
      exact .throw
    | some target =>
      simp only [found]
      -- The target of a reference in the documents is one of those that have to be followed.
      have listed : target ∈ documents.targets := by
        refine lists text ?_ target found
        exact Documents.mem_references_object.mpr
          ⟨"$ref", .string text, List.mem_singleton_self _, .inl ⟨rfl, rfl⟩⟩
      exact (agrees target listed).bind fun _ => .pure
  | _ => exact .throw

/-! The parts of a document are read alike where what lies in them is. -/

section

variable {follow follow' : Place → Reading SchemaId} {siblings : List (String × Json)} {key : String}

/-- A reading of a schema is the same, whichever way references are followed. -/
abbrev AgreesSchema (holds : SchemaTree → Prop) (documents : Documents)
    (follow follow' : Place → Reading SchemaId) (place : Place) (value : Json) : Prop :=
  Agrees holds (schema documents follow place value) (schema documents follow' place value)

/-- A reading of a member is the same. -/
abbrev AgreesKeyword (holds : SchemaTree → Prop) (documents : Documents)
    (follow follow' : Place → Reading SchemaId) (place : Place) (siblings : List (String × Json))
    (key : String) (value : Json) : Prop :=
  Agrees holds (keyword documents follow place siblings key value)
    (keyword documents follow' place siblings key value)

/-- A reading of members is the same. -/
abbrev AgreesClauses (holds : SchemaTree → Prop) (documents : Documents)
    (follow follow' : Place → Reading SchemaId) (place : Place)
    (siblings members : List (String × Json)) : Prop :=
  Agrees holds (clauses documents follow place siblings members)
    (clauses documents follow' place siblings members)

/-- A reading of named schemas is the same. -/
abbrev AgreesEntries (holds : SchemaTree → Prop) (documents : Documents)
    (follow follow' : Place → Reading SchemaId) (place : Place) (members : List (String × Json)) : Prop :=
  Agrees holds (entries documents follow place members) (entries documents follow' place members)

/-- A reading of listed schemas is the same. -/
abbrev AgreesBranches (holds : SchemaTree → Prop) (documents : Documents)
    (follow follow' : Place → Reading SchemaId) (place : Place) (index : Nat) (items : List Json) : Prop :=
  Agrees holds (branches documents follow place index items)
    (branches documents follow' place index items)

/-- A boolean schema has nothing inside. -/
theorem agrees_boolean {held : Bool} (endures : Endures holds) :
    AgreesSchema holds documents follow follow' place (.bool held) := by
  rw [AgreesSchema, schema, schema]
  have none : Agrees holds (pure () : Reading Unit) (pure ()) := .pure
  exact agrees_unlessKnown (agrees_object (fun _ => .boolean held) endures none)

/-- An object joins and is completed the same way on both sides, so only its members matter. -/
theorem agrees_members {members : List (String × Json)} (endures : Endures holds)
    (inner : AgreesClauses holds documents follow follow' place members members) :
    AgreesSchema holds documents follow follow' place (.object members) := by
  rw [AgreesSchema, schema, schema]
  exact agrees_unlessKnown (agrees_object _ endures inner)

/-- What is no schema is looked up and then refused. -/
theorem agrees_other (notBool : ∀ held, value ≠ .bool held)
    (notObject : ∀ members, value ≠ .object members) :
    AgreesSchema holds documents follow follow' place value := by
  rw [AgreesSchema, schema, schema]
  · exact agrees_unlessKnown .throw
  all_goals assumption

/-- Members are read one after the other. -/
theorem agrees_clauses {rest : List (String × Json)}
    (first : AgreesKeyword holds documents follow follow' place siblings key value)
    (others : AgreesClauses holds documents follow follow' place siblings rest) :
    AgreesClauses holds documents follow follow' place siblings ((key, value) :: rest) := by
  rw [AgreesClauses, clauses_cons, clauses_cons]
  exact first.bind fun _ => others.bind fun _ => .pure

/-- A member that is refused is so before anything is followed. -/
theorem agrees_invalid {problem : SchemaProblem} (nested : nesting key value = .invalid problem) :
    AgreesKeyword holds documents follow follow' place siblings key value := by
  rw [AgreesKeyword, keyword_of_invalid nested, keyword_of_invalid nested]
  exact .throw

/-- A member with a schema in it is read as that is. -/
theorem agrees_nested {made : SchemaId → Keyword} (nested : nesting key value = .schema made)
    (inner : AgreesSchema holds documents follow follow' (place.member key) value) :
    AgreesKeyword holds documents follow follow' place siblings key value := by
  rw [AgreesKeyword, keyword_of_schema nested, keyword_of_schema nested]
  exact inner.bind fun _ => .pure

/-- A member with a list of schemas in it is read as these are. -/
theorem agrees_branches {items : List Json} {made : List SchemaId → Keyword}
    (nested : nesting key (.array items) = .schemas made)
    (inner : AgreesBranches holds documents follow follow' (place.member key) 0 items) :
    AgreesKeyword holds documents follow follow' place siblings key (.array items) := by
  rw [AgreesKeyword, keyword_of_schemas nested, keyword_of_schemas nested]
  exact inner.bind fun _ => .pure

/-- A member with named schemas in it is read as these are. -/
theorem agrees_table {entries : List (String × Json)} {made : List (String × SchemaId) → Keyword}
    (nested : nesting key (.object entries) = .table made)
    (inner : AgreesEntries holds documents follow follow' (place.member key) entries) :
    AgreesKeyword holds documents follow follow' place siblings key (.object entries) := by
  rw [AgreesKeyword, keyword_of_table nested, keyword_of_table nested]
  exact inner.bind fun _ => .pure

/-- A member without schemas in it is read without a look at the tree. -/
theorem agrees_plain (plain : nesting key value = .none) (direct : key ≠ "$ref") :
    AgreesKeyword holds documents follow follow' place siblings key value := by
  rw [AgreesKeyword, keyword_of_plain plain direct, keyword_of_plain plain direct]
  refine .refl fun tree held => ?_
  rw [closes_liftExcept]
  cases plainKeyword (place.member key).location siblings key value with
  | ok _ => exact held
  | error _ => exact ⟨held, trivial⟩

/-- Named schemas are read one after the other. -/
theorem agrees_entries {name : String} {rest : List (String × Json)}
    (first : AgreesSchema holds documents follow follow' (place.member name) value)
    (others : AgreesEntries holds documents follow follow' place rest) :
    AgreesEntries holds documents follow follow' place ((name, value) :: rest) := by
  rw [AgreesEntries, entries, entries]
  exact first.bind fun _ => others.bind fun _ => .pure

/-- Listed schemas are read one after the other. -/
theorem agrees_items {index : Nat} {item : Json} {rest : List Json}
    (first : AgreesSchema holds documents follow follow' (place.item index) item)
    (others : AgreesBranches holds documents follow follow' place (index + 1) rest) :
    AgreesBranches holds documents follow follow' place index (item :: rest) := by
  rw [AgreesBranches, branches, branches]
  exact first.bind fun _ => others.bind fun _ => .pure

end

/-- Schemas are read alike if references are followed alike. -/
theorem agrees_schema {follow follow' : Place → Reading SchemaId} (endures : Endures holds)
    (agrees : ∀ target ∈ documents.targets, Agrees holds (follow target) (follow' target)) :
    (∀ place value, documents.Lists place.document value →
      AgreesSchema holds documents follow follow' place value) ∧
    ∀ place siblings members, documents.Lists place.document (.object members) →
      AgreesClauses holds documents follow follow' place siblings members := by
  -- The references in a part are among those of the documents, as those of the whole are.
  refine parts_induction
    (fun place siblings key value => documents.Lists place.document (.object [(key, value)]) →
      AgreesKeyword holds documents follow follow' place siblings key value)
    (fun place members => documents.Lists place.document (.object members) →
      AgreesEntries holds documents follow follow' place members)
    (fun place index items => documents.Lists place.document (.array items) →
      AgreesBranches holds documents follow follow' place index items)
    ?boolean ?object ?other ?noMembers ?members ?invalid ?nested ?branches ?table ?reference ?plain
    ?noEntries ?entries ?noItems ?items
  case boolean => exact fun _ _ _ => agrees_boolean endures
  case object => exact fun _ _ inner lists => agrees_members endures (inner lists)
  case other => exact fun _ _ notBool notObject _ => agrees_other notBool notObject
  case noMembers => exact fun _ _ _ => .pure
  case members =>
    intro place siblings key value rest first others lists
    exact agrees_clauses (first (lists.members (by simp)))
      (others (lists.members (List.subset_cons_self _ _)))
  case invalid => exact fun _ _ _ _ _ nested _ => agrees_invalid nested
  case nested =>
    intro place siblings key value made nested inner lists
    exact agrees_nested nested (inner (lists.member (List.mem_singleton_self _)))
  case branches =>
    intro place siblings key items made nested inner lists
    exact agrees_branches nested (inner (lists.member (List.mem_singleton_self _)))
  case table =>
    intro place siblings key entries made nested inner lists
    exact agrees_table nested (inner (lists.member (List.mem_singleton_self _)))
  case reference =>
    intro place siblings value lists
    rw [AgreesKeyword, keyword_reference, keyword_reference, ← bind_pure_comp, ← bind_pure_comp]
    -- Only here do the two sides follow anything.
    exact (agrees_reference agrees lists).bind fun _ => .pure
  case plain => exact fun _ _ _ _ plain direct _ => agrees_plain plain direct
  case noEntries => exact fun _ _ => .pure
  case entries =>
    intro place name value rest first others lists
    exact agrees_entries (first (lists.member List.mem_cons_self))
      (others (lists.members (List.subset_cons_self _ _)))
  case noItems => exact fun _ _ _ => .pure
  case items =>
    intro place index item rest first others lists
    exact agrees_items (first (lists.item List.mem_cons_self))
      (others (lists.items (List.subset_cons_self _ _)))

/-- Whether all places that references lead to are pending or known. -/
def Covers (documents : Documents) (pending : List Place) (tree : SchemaTree) : Prop :=
  ∀ target ∈ documents.targets, target ∈ pending ∨ (tree.find? target.location).isSome = true

/-- A place that is being read is not pending, because it is known. -/
theorem Covers.erase {pending : List Place} {tree : SchemaTree} (covers : Covers documents pending tree)
    (fresh : tree.find? place.location = none) :
    Covers documents (pending.erase place) (tree.reserve place.location).2 := by
  intro target listed
  -- A place is covered by being pending or by being known, and this one is known from here on.
  by_cases same : target = place
  · subst same
    rw [SchemaTree.find?_reserve fresh]
    exact .inr rfl
  · rcases covers target listed with waiting | known
    · exact .inl ((List.mem_erase_of_ne same).mpr waiting)
    · obtain ⟨id, known⟩ := Option.isSome_iff_exists.mp known
      rw [SchemaTree.Continues.reserve.find? known]
      exact .inr rfl

/-- The places to be covered are so for good. -/
theorem endures_covers {pending : List Place} : Endures (Covers documents pending) where
  reserve covers target listed := (covers target listed).imp_right endures_known.reserve
  complete covers target listed := (covers target listed).imp_right endures_known.complete

/-- What is followed when a place is not known yet. -/
theorem follow_of_fresh {pending : List Place} (fresh : start.find? place.location = none) :
    follow documents pending place start =
      match documents.valueAt? place with
      | some value =>
        if place ∈ pending then
          schema documents (follow documents (pending.erase place)) place value start
        else .error (.unresolvedReference place.location place.location) start
      | none => .error (.unresolvedReference place.location place.location) start := by
  rw [follow]
  -- The schema is looked up first, and it is not found.
  refine unlessKnown_apply.trans ?_
  rw [fresh]
  cases documents.valueAt? place with
  | none => rfl
  | some value =>
    by_cases waiting : place ∈ pending
    · simp only [dif_pos waiting, if_pos waiting]
    · simp only [dif_neg waiting, if_neg waiting]
      rfl

/-- A place that is known is not read again. -/
theorem follow_of_known {pending : List Place} {id : SchemaId}
    (known : start.find? place.location = some id) :
    follow documents pending place start = .ok id start := by
  rw [follow]
  refine unlessKnown_apply.trans ?_
  rw [known]

/-- Following a reference keeps what endures. -/
theorem keeps_follow (endures : Endures holds) {pending : List Place} :
    Keeps holds (fun _ => True) (follow documents pending place) := by
  -- Inside, fewer places are pending, so the induction is on their number.
  induction size : pending.length using Nat.strong_induction_on generalizing pending place with
  | _ size ih =>
    subst size
    intro tree held
    unfold Closes
    cases fresh : tree.find? place.location with
    | some id =>
      rw [follow_of_known fresh]
      exact held
    | none =>
      rw [follow_of_fresh fresh]
      -- Only a value at the place is read, and only where the place is pending.
      cases found : documents.valueAt? place with
      | none => exact ⟨held, trivial⟩
      | some value =>
        dsimp only
        split_ifs with waiting
        · exact ((agrees_schema endures fun target _ =>
            .refl (ih _ (length_erase_lt waiting) rfl)).1 place value
              (Documents.lists_of_valueAt? found)).keeps tree held
        · exact ⟨held, trivial⟩

/-- What is read of an object when its place is not known yet. -/
theorem schema_of_fresh {follow : Place → Reading SchemaId} {members : List (String × Json)}
    (fresh : start.find? place.location = none) :
    schema documents follow place (.object members) start =
      (do
        let found ← clauses documents follow place members members
        modify fun tree => tree.complete ⟨start.schemas.size⟩ (.object (.object members) found)
        return ⟨start.schemas.size⟩ : Reading SchemaId) (start.reserve place.location).2 := by
  rw [schema]
  -- The schema is looked up first, and it is not found.
  refine unlessKnown_apply.trans ?_
  rw [fresh]
  rfl

/-- A value at a place that is not known yet is read alike if references are followed alike from the
tree that the place has joined. -/
theorem schema_congr {follow follow' : Place → Reading SchemaId} (endures : Endures holds)
    (agrees : ∀ target ∈ documents.targets, Agrees holds (follow target) (follow' target))
    (found : documents.valueAt? place = some value) (fresh : start.find? place.location = none)
    (held : holds (start.reserve place.location).2) :
    schema documents follow place value start = schema documents follow' place value start := by
  cases value with
  | object members =>
    have parts := (agrees_schema endures agrees).2 place members members
      (Documents.lists_of_valueAt? found)
    rw [schema_of_fresh fresh, schema_of_fresh fresh]
    -- The members are read alike, and completing depends on the tree alone.
    refine (parts.bind fun found => Agrees.bind (.refl fun tree held => ?_) fun _ => .pure).same _ held
    exact endures.complete held
  | bool held => rw [schema, schema]
  | _ => rw [schema, schema] <;> simp

/-- A place to be followed is pending if it is not known yet. -/
theorem Covers.waiting {pending : List Place} {target : Place} (covers : Covers documents pending start)
    (listed : target ∈ documents.targets) (fresh : start.find? target.location = none) :
    target ∈ pending :=
  (covers target listed).resolve_right (by simp [fresh])

/-- A list of pending places that covers all places to be followed cuts nothing short: two such lists
make no difference. -/
theorem follow_eq_of_covers {pending pending' : List Place} {target : Place}
    (listed : target ∈ documents.targets) (covers : Covers documents pending start)
    (covers' : Covers documents pending' start) :
    follow documents pending target start = follow documents pending' target start := by
  induction size : pending.length using Nat.strong_induction_on
      generalizing pending pending' target start with
  | _ size ih =>
    subst size
    -- A known place is found in the tree by either list.
    cases fresh : start.find? target.location with
    | some id => rw [follow_of_known fresh, follow_of_known fresh]
    | none =>
      -- Neither list cuts the place short, as both cover it.
      have waiting := covers.waiting listed fresh
      rw [follow_of_fresh fresh, follow_of_fresh fresh]
      cases found : documents.valueAt? target with
      | none => rfl
      | some value =>
        simp only [if_pos waiting, if_pos (covers'.waiting listed fresh)]
        -- From here on the place is known, so it need not be pending.
        have endures : Endures fun tree => Covers documents (pending.erase target) tree ∧
            Covers documents (pending'.erase target) tree :=
          ⟨fun held => ⟨endures_covers.reserve held.1, endures_covers.reserve held.2⟩,
            fun held => ⟨endures_covers.complete held.1, endures_covers.complete held.2⟩⟩
        refine schema_congr endures (fun next listed => ⟨keeps_follow endures, fun tree held => ?_⟩)
          found fresh ⟨covers.erase fresh, covers'.erase fresh⟩
        exact ih _ (length_erase_lt waiting) listed held.1 held.2 rfl

end

end Reading

/-- The schema at a place, read together with all that it refers to. -/
def Documents.read (documents : Documents) (place : Place) : Reading SchemaId :=
  Reading.follow documents (place :: documents.targets) place

/-- Whether a way of reading is the plain recursion over places: a place that is known is not read
again, a value is read with its parts, and every reference in it is read in the same way. -/
def Documents.Recurs (documents : Documents) (read : Place → Reading SchemaId) : Prop :=
  ∀ place, read place = (do
    if let some id ← Reading.known? place then return id
    match documents.valueAt? place with
    | some value => Reading.schema documents read place value
    | none => throw (.unresolvedReference place.location place.location))

namespace Documents

open Reading

variable {documents : Documents} {place : Place} {start : SchemaTree}

/-- The root of a document is read from its place. -/
theorem root_eq {uri document : String} (registered : documents.canonical? uri = some document) :
    documents.root uri = documents.read ⟨document, ""⟩ := by
  rw [root, registered]
  rfl

/-- A fault leaves the root of a document behind if it is an object: the place is known from then on, so
that reading the root once more meets no fault. -/
theorem root_after_fault {uri document : String} {members : List (String × Json)} {fault : Fault}
    {last : SchemaTree} (registered : documents.canonical? uri = some document)
    (found : documents.valueAt? ⟨document, ""⟩ = some (.object members))
    (fresh : start.find? (Place.location ⟨document, ""⟩) = none)
    (ran : (documents.root uri).run start = .error fault last) :
    ∃ id, (documents.root uri).run last = .ok id last := by
  rw [root_eq registered] at ran ⊢
  generalize (⟨document, ""⟩ : Place) = place at found fresh ran ⊢
  -- The place is reserved before any member is read, and what is known stays known.
  have reserved : ((start.reserve place.location).2.find? place.location).isSome = true := by
    rw [SchemaTree.find?_reserve fresh]
    rfl
  have kept (pending : List Place) : Keeps (fun tree => (tree.find? place.location).isSome = true)
      (fun _ => True)
      (do
        let found ← clauses documents (follow documents pending) place members members
        modify fun tree => tree.complete ⟨start.schemas.size⟩ (.object (.object members) found)
        return ⟨start.schemas.size⟩ : Reading SchemaId) := by
    have known : Endures fun tree => (tree.find? place.location).isSome = true := endures_known
    have parts := (agrees_schema known fun target _ =>
      .refl (@keeps_follow documents target _ known pending)).2 place members members
        (lists_of_valueAt? found)
    refine parts.keeps.bind fun found => Keeps.bind (fun tree held => ?_) fun _ => .pure
    exact known.complete held
  -- The fault can only have come while the members were read, as the place was fresh.
  have ran : follow documents (place :: documents.targets) place start = .error fault last := ran
  rw [follow_of_fresh fresh, found] at ran
  simp only [if_pos List.mem_cons_self] at ran
  rw [schema_of_fresh fresh] at ran
  -- The place was known through all of that, so it is found when the root is read again.
  have left := kept ((place :: documents.targets).erase place) _ reserved
  unfold Closes at left
  rw [ran] at left
  obtain ⟨id, known⟩ := Option.isSome_iff_exists.mp left.1
  exact ⟨id, follow_of_known known⟩

example :
    let documents : Documents := { contents := ⟨[("a", .object [("type", .integer 5)])]⟩ }
    ((documents.root "a").run' {}).isNone ∧
      ((documents.root "a").run' (lastState (documents.root "a") {})).isSome := by decide +kernel

/-- One round of the plain recursion. -/
theorem Recurs.apply {read : Place → Reading SchemaId} (recurs : documents.Recurs read) :
    read place start =
      match start.find? place.location with
      | some id => .ok id start
      | none =>
        match documents.valueAt? place with
        | some value => schema documents read place value start
        | none => .error (.unresolvedReference place.location place.location) start := by
  rw [recurs place]
  -- The place is looked up first, in both forms of the recursion.
  refine unlessKnown_apply.trans ?_
  cases start.find? place.location with
  | some id => rfl
  | none => cases documents.valueAt? place <;> rfl

/-- What is followed with all places pending is read. -/
theorem agrees_read {target : Place} (listed : target ∈ documents.targets) :
    Agrees (fun _ => True) (follow documents documents.targets target) (documents.read target) := by
  refine ⟨keeps_follow ⟨fun _ => trivial, fun _ => trivial⟩, fun tree _ => ?_⟩
  exact follow_eq_of_covers listed (fun _ listed => .inl listed)
    fun _ listed => .inl (List.mem_cons_of_mem _ listed)

/-- The list of pending places never cuts reading short. -/
theorem recurs_read : documents.Recurs documents.read := by
  intro place
  funext start
  -- A known place is found, and otherwise its value is read with fewer places pending.
  refine Eq.trans ?_ unlessKnown_apply.symm
  unfold read
  cases fresh : start.find? place.location with
  | some id => exact follow_of_known fresh
  | none =>
    rw [follow_of_fresh fresh]
    cases found : documents.valueAt? place with
    | none => rfl
    | some value =>
      simp only [List.mem_cons_self, if_true, List.erase_cons_head]
      exact schema_congr ⟨fun _ => trivial, fun _ => trivial⟩ (fun target listed => agrees_read listed)
        found fresh trivial

/-- The plain recursion follows references as they are followed while enough places are pending. -/
theorem Recurs.follow_eq {read : Place → Reading SchemaId} (recurs : documents.Recurs read)
    {pending : List Place} {target : Place} (listed : target ∈ documents.targets)
    (covers : Covers documents pending start) :
    follow documents pending target start = read target start := by
  -- A place that is followed is no longer pending, so the induction is on how many are.
  induction size : pending.length using Nat.strong_induction_on generalizing pending target start with
  | _ size ih =>
    subst size
    rw [recurs.apply]
    -- A known place is found by both.
    cases fresh : start.find? target.location with
    | some id => exact follow_of_known fresh
    | none =>
      have waiting := covers.waiting listed fresh
      rw [follow_of_fresh fresh]
      cases found : documents.valueAt? target with
      | none => rfl
      | some value =>
        simp only [if_pos waiting]
        refine schema_congr endures_covers
          (fun next listed => ⟨keeps_follow endures_covers, fun tree covers => ?_⟩) found fresh
          (covers.erase fresh)
        exact ih _ (length_erase_lt waiting) listed covers rfl

/-- The plain recursion over places has one solution: it ends wherever it starts. -/
theorem recurs_iff {read : Place → Reading SchemaId} :
    documents.Recurs read ↔ read = documents.read := by
  constructor
  · intro recurs
    funext place start
    rw [recurs.apply, recurs_read.apply]
    -- A known place is found by both.
    cases fresh : start.find? place.location with
    | some id => rfl
    | none =>
      cases found : documents.valueAt? place with
      | none => rfl
      | some value =>
        -- Both recursions follow references alike, and that is all in which they could differ.
        have endures : Endures fun _ => True := ⟨fun _ => trivial, fun _ => trivial⟩
        refine (schema_congr endures (fun target listed => ?_) found fresh trivial).symm
        refine ⟨keeps_follow endures, fun tree _ => ?_⟩
        rw [← (agrees_read listed).same tree trivial]
        exact recurs.follow_eq listed fun _ listed => .inl listed
  · rintro rfl
    exact recurs_read

end Documents

end SchemaClasses
