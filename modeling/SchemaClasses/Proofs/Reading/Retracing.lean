import SchemaClasses.Proofs.Reading.Roots
import SchemaClasses.Proofs.Reading.Upgrading

/-! Upgraded documents are read place by place like those that they were made from. -/

namespace SchemaClasses

namespace Documents

variable {documents documents' : Documents} {place : Place} {value : Json}

/-- Inside a boolean nothing lies. -/
theorem valueAt?_member_of_bool {held : Bool} {name : String}
    (found : documents.valueAt? place = some (.bool held)) :
    documents.valueAt? (place.member name) = none := by
  rw [valueAt?_member_eq, found]
  rfl

/-- Whether no name stands twice in any object of the documents. -/
def Distinct (documents : Documents) : Prop :=
  ∀ place members, documents.valueAt? place = some (.object members) → (members.map (·.1)).Nodup

/-- Whether replacing pairs leaves alone, at the places that are read, booleans that are schemas and
values that are kept as they are. -/
structure Shelters (documents documents' : Documents) (within : Place → Prop) : Prop where
  booleans : ∀ place value, within place → documents.valueAt? place = some (.bool value) →
    documents'.valueAt? place = some (.bool value)
  values : ∀ place key, within place → Reading.isKept key = true →
    documents'.valueAt? (place.member key) = documents.valueAt? (place.member key)

/-- Upgraded documents that can be read along: the places that are read are those that schemas lead
to, and what must be left alone there is. -/
structure Parallel (documents documents' : Documents) (within : Place → Prop) : Prop
    extends Shelters documents documents' within where
  upgrades : documents.Upgrades documents'
  distinct : documents.Distinct
  onward : ∀ {place next}, within place → next ∈ documents.onward place → within next

/-- Whether a value and its upgraded form lie at a place that is read. -/
structure Beside (documents documents' : Documents) (within : Place → Prop) (place : Place)
    (value value' : Json) : Prop where
  within : within place
  here : documents.valueAt? place = some value
  there : documents'.valueAt? place = some value'
  upgrades : value.Upgrades value'

/-- At a place an upgraded value lies, or one with nothing inside has been there. -/
theorem Upgrades.valueAt? (upgrades : documents.Upgrades documents')
    (found : documents.valueAt? place = some value) :
    (∃ value', documents'.valueAt? place = some value' ∧ value.Upgrades value') ∨ value.IsFlat := by
  obtain ⟨content, here, found⟩ := Option.bind_eq_some_iff.mp found
  obtain ⟨content', here', content⟩ := upgrades.contents.lookup here
  refine (content.select found).imp_left fun ⟨value', found', inner⟩ => ⟨value', ?_, inner⟩
  exact Option.bind_eq_some_iff.mpr ⟨content', here', found'⟩

end Documents

namespace Reading

section

variable {documents documents' : Documents} {follow follow' : Place → Reading SchemaId}
variable {within : Place → Prop} {place : Place} {key : String} {value : Json}

/-- Keywords with schemas inside are no bounds. -/
theorem apart_of_nesting (nested : nesting key value ≠ .none) (side : Side) :
    key ≠ side.key ∧ key ≠ side.exclusiveKey := by
  constructor
  · rintro rfl
    cases side <;> exact nested rfl
  · rintro rfl
    cases side <;> exact nested rfl

/-- What is known already is looked up alike. -/
theorem retraces_unlessKnown {step step' : Reading SchemaId}
    (retraces : ∀ tree tree', tree.Concurs tree' → tree.find? place.location = none →
      ∀ id last, step tree = .ok id last → ∃ last', step' tree' = .ok id last' ∧ last.Concurs last') :
    Retraces SchemaTree.Concurs
      (do
        if let some id ← known? place then return id
        step)
      (do
        if let some id ← known? place then return id
        step') := by
  intro tree tree' concurs id last ran
  replace ran := unlessKnown_apply.symm.trans ran
  -- What one tree knows the other one knows under the same number.
  cases found : tree.find? place.location with
  | some known =>
    rw [found] at ran
    cases ran
    exact ⟨tree', unlessKnown_apply.trans (by rw [← concurs.find?_eq, found]), concurs⟩
  | none =>
    rw [found] at ran
    obtain ⟨last', ran', concurs'⟩ := retraces tree tree' concurs found id last ran
    exact ⟨last', unlessKnown_apply.trans (by rw [← concurs.find?_eq, found, ran']), concurs'⟩

/-- A schema joins both trees under the same number. -/
theorem retraces_reserve : Retraces SchemaTree.Concurs (reserve place) (reserve place) := by
  rintro tree tree' concurs _ _ ⟨⟩
  refine ⟨(tree'.reserve place.location).2, ?_, concurs.reserve⟩
  show EStateM.Result.ok (⟨tree'.schemas.size⟩ : SchemaId) _ = .ok ⟨tree.schemas.size⟩ _
  rw [concurs.size]
  rfl

/-- No bound is kept as it is. -/
theorem apart_of_isKept (kept : isKept key = true) (side : Side) :
    key ≠ side.key ∧ key ≠ side.exclusiveKey := by
  constructor
  · rintro rfl
    cases side <;> simp [isKept, Side.key] at kept
  · rintro rfl
    cases side <;> simp [isKept, Side.exclusiveKey] at kept

/-- A part that a member leads to lies beside its upgraded form. -/
theorem beside_member (parallel : documents.Parallel documents' within)
    {members : List (String × Json)} {next : Place} {part part' : Json} (inside : within place)
    (here : documents.valueAt? place = some (.object members)) (member : (key, value) ∈ members)
    (leads : next ∈ documents.onwardFrom place key value)
    (found : documents.valueAt? next = some part) (found' : documents'.valueAt? next = some part')
    (upgrades : part.Upgrades part') : documents.Beside documents' within next part part' where
  within := parallel.onward inside
    (Documents.mem_onward.mpr ⟨members, key, value, here, member, leads⟩)
  here := found
  there := found'
  upgrades := upgrades

/-- An object at a place that is read, and the members of its upgraded form before any pair of them is
replaced. -/
structure ObjectBeside (documents : Documents) (within : Place → Prop) (place : Place)
    (siblings siblings' : List (String × Json)) : Prop where
  within : within place
  here : documents.valueAt? place = some (.object siblings)
  upgrades : Json.UpgradesInside siblings siblings'

/-- The upgraded value of a member, which lies where the member lay unless it is part of a pair. -/
structure MemberBeside (documents' : Documents) (place : Place) (key : String) (value value' : Json) :
    Prop where
  upgrades : value.Upgrades value'
  there : (∀ side : Side, key ≠ side.key ∧ key ≠ side.exclusiveKey) →
    documents'.valueAt? (place.member key) = some value'

/-- A member of an object at a place that is read lies there. -/
theorem ObjectBeside.found {siblings siblings' : List (String × Json)}
    (object : ObjectBeside documents within place siblings siblings')
    (parallel : documents.Parallel documents' within) (listed : (key, value) ∈ siblings) :
    documents.valueAt? (place.member key) = some value :=
  (Documents.valueAt?_member object.here).trans
    (lookup_of_mem_of_nodup (parallel.distinct place siblings object.here) listed)

/-- A table of schemas is no schema, so no pair of it is replaced. -/
theorem upgradeSides_table (parallel : documents.Parallel documents' within)
    {members entries inner : List (String × Json)} {sides : List Side} (inside : within place)
    (here : documents.valueAt? place = some (.object members))
    (member : (key, .object entries) ∈ members)
    (leads : documents.onwardFrom place key (.object entries) =
      entries.map fun (name, _) => (place.member key).member name)
    (found : documents.valueAt? (place.member key) = some (.object entries))
    (found' : documents'.valueAt? (place.member key) = some (.object (upgradeSides sides inner)))
    (each : Json.UpgradesInside entries inner) : upgradeSides sides inner = inner := by
  refine upgradeSides_eq_self fun side set => ?_
  rw [isTrue_iff] at set ⊢
  -- The flag is a boolean schema in the table, which is left alone.
  obtain ⟨flag, flagged, upgrades⟩ := each.lookup' set
  cases upgrades.eq_of_isFlat' trivial
  have listed : (place.member key).member side.exclusiveKey ∈
      documents.onwardFrom place key (.object entries) := by
    rw [leads]
    exact List.mem_map.mpr ⟨_, mem_of_lookup_eq_some flagged, rfl⟩
  have read := parallel.onward inside
    (Documents.mem_onward.mpr ⟨members, key, _, here, member, listed⟩)
  rw [← Documents.valueAt?_member found']
  exact parallel.booleans _ true read ((Documents.valueAt?_member found).trans flagged)

/-! What is to be shown of schemas, of members, and of lists of both, each beside its upgraded form. -/

/-- A schema is read along with its upgraded form. -/
def RetracesSchema (documents documents' : Documents) (follow follow' : Place → Reading SchemaId)
    (within : Place → Prop) (place : Place) (value : Json) : Prop :=
  ∀ value', documents.Beside documents' within place value value' →
    Retraces SchemaTree.Concurs (schema documents follow place value)
      (schema documents' follow' place value')

/-- A member of an object is read along with its upgraded form. -/
def RetracesMember (documents documents' : Documents) (follow follow' : Place → Reading SchemaId)
    (within : Place → Prop) (place : Place) (siblings : List (String × Json)) (key : String)
    (value : Json) : Prop :=
  ∀ siblings' value', ObjectBeside documents within place siblings siblings' →
    (key, value) ∈ siblings → MemberBeside documents' place key value value' →
    Retraces SchemaTree.Concurs (keyword documents follow place siblings key value)
      (keyword documents' follow' place siblings' key value')

/-- Some members of an object are read along with their upgraded forms. -/
def RetracesMembers (documents documents' : Documents) (follow follow' : Place → Reading SchemaId)
    (within : Place → Prop) (place : Place) (siblings members : List (String × Json)) : Prop :=
  ∀ siblings' members', ObjectBeside documents within place siblings siblings' → members ⊆ siblings →
    List.Forall₂ (fun member member' => member.1 = member'.1 ∧
      MemberBeside documents' place member.1 member.2 member'.2) members members' →
    Retraces SchemaTree.Concurs (clauses documents follow place siblings members)
      (clauses documents' follow' place siblings' members')

/-- Schemas in a table are read along with their upgraded forms. -/
def RetracesEntries (documents documents' : Documents) (follow follow' : Place → Reading SchemaId)
    (within : Place → Prop) (place : Place) (members : List (String × Json)) : Prop :=
  ∀ members', List.Forall₂ (fun member member' => member.1 = member'.1 ∧
      documents.Beside documents' within (place.member member.1) member.2 member'.2) members members' →
    Retraces SchemaTree.Concurs (entries documents follow place members)
      (entries documents' follow' place members')

/-- Schemas in an array are read along with their upgraded forms. -/
def RetracesItems (documents documents' : Documents) (follow follow' : Place → Reading SchemaId)
    (within : Place → Prop) (place : Place) (index : Nat) (items : List Json) : Prop :=
  ∀ items', items.length = items'.length →
    (∀ i item item', items[i]? = some item → items'[i]? = some item' →
      documents.Beside documents' within (place.item (index + i)) item item') →
    Retraces SchemaTree.Concurs (branches documents follow place index items)
      (branches documents' follow' place index items')

variable {siblings members rest : List (String × Json)} {items : List Json}

/-- A boolean schema stays as it is. -/
theorem retraces_boolean (value : Bool) :
    RetracesSchema documents documents' follow follow' within place (.bool value) := by
  intro value' beside
  rw [beside.upgrades.eq_of_isFlat trivial, schema, schema]
  refine retraces_unlessKnown fun tree tree' concurs _ => ?_
  refine (retraces_reserve.bind fun id => Retraces.bind (.modify fun _ _ alike => ?_) fun _ => .pure)
    tree tree' concurs
  exact alike.complete (.boolean value)

/-- The texts of a schema that are no keywords are in no pair. -/
theorem texts_upgrades {value' : Json} (upgrades : (Json.object members).Upgrades value') :
    ∀ name ∈ ["title", "description"],
      ((Json.object members).member? name).bind Json.text? = (value'.member? name).bind Json.text? := by
  intro name listed
  refine upgrades.textAt_eq fun side => ?_
  rcases List.mem_pair.mp listed with rfl | rfl <;> cases side <;> decide

/-- A schema object is read along if its members are. -/
theorem retraces_object (parallel : documents.Parallel documents' within)
    (ofMembers : RetracesMembers documents documents' follow follow' within place members members) :
    RetracesSchema documents documents' follow follow' within place (.object members) := by
  intro value' beside
  have texts := texts_upgrades beside.upgrades
  obtain ⟨sides, inner, rfl, each⟩ := beside.upgrades.of_object
  have names : (inner.map (·.1)).Nodup :=
    (Json.upgradesInside_iff.mp each).1 ▸ parallel.distinct place members beside.here
  rw [schema, schema]
  refine retraces_unlessKnown fun tree tree' concurs _ => ?_
  -- The schema is reserved on both sides before any member is read.
  refine (retraces_reserve.bind fun id => ?_) tree tree' concurs
  intro tree tree' concurs result last ran
  obtain ⟨found, between, read, ran⟩ := run_bind_eq_ok.mp ran
  cases ran
  -- First the members are read as they are upgraded inside, then the pairs beside them are replaced.
  have each' := forall₂_and_right each fun member' listed' => show
      (∀ side : Side, member'.1 ≠ side.key ∧ member'.1 ≠ side.exclusiveKey) →
        documents'.valueAt? (place.member member'.1) = some member'.2 by
    intro apart
    rw [Documents.valueAt?_member beside.there, lookup_upgradeSides apart]
    exact lookup_of_mem_of_nodup names listed'
  obtain ⟨between', read', concurs'⟩ := ofMembers inner inner ⟨beside.within, beside.here, each⟩
    (List.Subset.refl _)
    (each'.imp fun _ _ held => ⟨held.1.1, held.1.2, fun apart => held.1.1 ▸ held.2 (held.1.1 ▸ apart)⟩)
    tree tree' concurs found between read
  -- Replacing a pair changes no clause but for the text, so the same ones are read.
  obtain ⟨found', read', same⟩ := clauses_upgradeSides sides read'
  exact ⟨_, run_bind_eq_ok.mpr ⟨found', between', read', rfl⟩, concurs'.complete (.object texts same)⟩

/-- What is no schema is none in its upgraded form either. -/
theorem retraces_other (notBool : ∀ held, value ≠ .bool held)
    (notObject : ∀ members, value ≠ .object members) :
    RetracesSchema documents documents' follow follow' within place value := by
  intro value' beside
  -- Only a boolean is upgraded to a boolean, and only an object to an object.
  have notBool' : ∀ held, value' ≠ .bool held := by
    rintro held rfl
    exact notBool held (beside.upgrades.eq_of_isFlat' trivial)
  have notObject' : ∀ members, value' ≠ .object members := by
    rintro members rfl
    cases beside.upgrades with
    | same => exact notObject members rfl
    | object sides names each => exact notObject _ rfl
  rw [schema, schema]
  · apply retraces_unlessKnown
    intro tree tree' concurs unknown id last ran
    cases ran
  all_goals assumption

/-- Members are read along one by one. -/
theorem retraces_members
    (first : RetracesMember documents documents' follow follow' within place siblings key value)
    (others : RetracesMembers documents documents' follow follow' within place siblings rest) :
    RetracesMembers documents documents' follow follow' within place siblings ((key, value) :: rest) := by
  intro siblings' members' object listed each
  cases each with
  | @cons _ member' _ rest' held each =>
    obtain ⟨key', value'⟩ := member'
    obtain ⟨rfl, member⟩ := held
    rw [clauses_cons, clauses_cons]
    -- The first member is read along, and behind it the others are.
    refine (first siblings' value' object (listed List.mem_cons_self) member).bind fun _ => ?_
    exact (others siblings' rest' object (fun _ member => listed (List.mem_cons_of_mem _ member))
      each).bind fun _ => .pure

/-- A schema in a keyword is read along. -/
theorem retraces_nested {made : SchemaId → Keyword} (parallel : documents.Parallel documents' within)
    (nested : nesting key value = .schema made)
    (inner : RetracesSchema documents documents' follow follow' within (place.member key) value) :
    RetracesMember documents documents' follow follow' within place siblings key value := by
  intro siblings' value' object listed member
  have apart := apart_of_nesting (show nesting key value ≠ .none by rw [nested]; simp)
  -- An upgrade does not change which keyword holds a schema.
  rw [keyword_of_schema nested, keyword_of_schema ((nesting_upgrades member.upgrades).trans nested)]
  refine (inner value' (beside_member parallel object.within object.here listed ?_
    (object.found parallel listed) (member.there apart) member.upgrades)).bind fun _ => .pure
  rw [(of_nesting_schema documents place nested).2]
  exact List.mem_singleton_self _

/-- Schemas in the array of a keyword are read along. -/
theorem retraces_branches {made : List SchemaId → Keyword}
    (parallel : documents.Parallel documents' within) (nested : nesting key (.array items) = .schemas made)
    (inner : RetracesItems documents documents' follow follow' within (place.member key) 0 items) :
    RetracesMember documents documents' follow follow' within place siblings key (.array items) := by
  intro siblings' value' object listed member
  have apart := apart_of_nesting (show nesting key (.array items) ≠ .none by rw [nested]; simp)
  have there := member.there apart
  -- An upgrade does not change which keyword holds an array of schemas, and the array keeps its
  -- length.
  have same := (nesting_upgrades member.upgrades).trans nested
  obtain ⟨items', rfl, each⟩ := member.upgrades.of_array
  rw [keyword_of_schemas nested, keyword_of_schemas same]
  obtain ⟨length, each⟩ := List.forall₂_iff_get.mp each
  refine (inner items' length fun i item item' held held' => ?_).bind fun _ => .pure
  obtain ⟨inside, rfl⟩ := List.getElem?_eq_some_iff.mp held
  obtain ⟨inside', rfl⟩ := List.getElem?_eq_some_iff.mp held'
  rw [Nat.zero_add]
  -- An item of the upgraded array stands at the place of the one it was made from.
  refine beside_member parallel object.within object.here listed ?_
    (Documents.valueAt?_item (object.found parallel listed) held)
    (Documents.valueAt?_item there held') (each i inside inside')
  rw [(of_nesting_schemas documents place nested).2]
  exact List.mem_map.mpr ⟨i, List.mem_range.mpr inside, rfl⟩

/-- Schemas in the table of a keyword are read along. -/
theorem retraces_table {made : List (String × SchemaId) → Keyword}
    (parallel : documents.Parallel documents' within)
    (nested : nesting key (.object members) = .table made)
    (inner : RetracesEntries documents documents' follow follow' within (place.member key) members) :
    RetracesMember documents documents' follow follow' within place siblings key (.object members) := by
  intro siblings' value' object listed member
  have apart := apart_of_nesting (show nesting key (.object members) ≠ .none by rw [nested]; simp)
  have found := object.found parallel listed
  have same := (nesting_upgrades member.upgrades).trans nested
  have leads := (of_nesting_table documents place nested).2
  have there := member.there apart
  obtain ⟨sides, members', rfl, each⟩ := member.upgrades.of_object
  -- A flag would be a schema in a table, so no pair of its members is replaced.
  have whole := upgradeSides_table parallel object.within object.here listed leads found there each
  rw [whole] at same there ⊢
  rw [keyword_of_table nested, keyword_of_table same]
  have names := parallel.distinct _ _ found
  have names' : (members'.map (·.1)).Nodup := (Json.upgradesInside_iff.mp each).1 ▸ names
  -- Each entry is found under its name on both sides, as no name comes twice.
  have both := forall₂_and_right each fun member' listed' =>
    (Documents.valueAt?_member there).trans (lookup_of_mem_of_nodup names' listed')
  have all := (List.forall₂_and_left (p := (· ∈ members)) _ _).mpr ⟨fun _ member => member, both⟩
  refine (inner members' (all.imp fun member member' held => ?_)).bind fun _ => .pure
  obtain ⟨listed', ⟨name, upgrades⟩, there'⟩ := held
  refine ⟨name, beside_member parallel object.within object.here listed ?_ ?_ (name ▸ there') upgrades⟩
  · rw [leads]
    exact List.mem_map.mpr ⟨member, listed', rfl⟩
  · exact (Documents.valueAt?_member found).trans (lookup_of_mem_of_nodup names listed')

/-- A reference is followed along. -/
theorem retraces_reference (parallel : documents.Parallel documents' within)
    (follows : ∀ target, within target →
      Retraces SchemaTree.Concurs (follow target) (follow' target)) :
    RetracesMember documents documents' follow follow' within place siblings "$ref" value := by
  intro siblings' value' object listed member
  rw [keyword_reference, keyword_reference, ← bind_pure_comp, ← bind_pure_comp]
  refine Retraces.bind ?_ fun _ => .pure
  unfold reference
  cases value with
  | string text =>
    rw [member.upgrades.eq_of_isFlat trivial]
    dsimp only
    -- A text is not upgraded, and leads to the same place in both sets of documents.
    rw [← parallel.upgrades.resolve?_eq]
    cases found : documents.resolve? (place.member "$ref").document text with
    | none => exact .throw
    | some target =>
      -- The target is one that the schema leads to, so it lies within what is read along.
      refine (follows target (parallel.onward object.within ?_)).bind fun _ => .pure
      refine Documents.mem_onward.mpr ⟨siblings, "$ref", .string text, object.here, listed, ?_⟩
      rw [onwardFrom_reference]
      exact Option.mem_toList.mpr found
  | _ => exact .throw

/-- A keyword without schemas inside is read along. -/
theorem retraces_plain (parallel : documents.Parallel documents' within)
    (plain : nesting key value = .none) (direct : key ≠ "$ref") :
    RetracesMember documents documents' follow follow' within place siblings key value := by
  intro siblings' value' object listed member
  rw [keyword_siblings fun side _ => object.upgrades.isTrue_eq, keyword_of_plain plain direct,
    keyword_of_plain ((nesting_upgrades member.upgrades).trans plain) direct]
  intro tree tree' concurs stated last ran
  -- Reading the value touches no tree, so only the keyword has to be the same.
  obtain ⟨read, rfl⟩ := liftExcept_eq_ok.mp ran
  refine ⟨tree', liftExcept_eq_ok.mpr ⟨?_, rfl⟩, concurs⟩
  refine plainKeyword_upgrades member.upgrades (fun kept => ?_) plain direct read
  -- A value that is kept as it is stands in both documents alike.
  have same := (member.there (apart_of_isKept kept)).symm.trans
    ((parallel.values place key object.within kept).trans (object.found parallel listed))
  exact Option.some.inj same

/-- Schemas in a table are read along one by one. -/
theorem retraces_entries
    (first : RetracesSchema documents documents' follow follow' within (place.member key) value)
    (others : RetracesEntries documents documents' follow follow' within place rest) :
    RetracesEntries documents documents' follow follow' within place ((key, value) :: rest) := by
  intro members' each
  cases each with
  | @cons _ member' _ rest' held each =>
    obtain ⟨name', value'⟩ := member'
    obtain ⟨rfl, beside⟩ := held
    -- The schema under the first name is read along, and behind it the others are.
    rw [entries, entries]
    exact (first value' beside).bind fun _ => (others rest' each).bind fun _ => .pure

/-- Schemas in an array are read along one by one. -/
theorem retraces_items {index : Nat}
    (first : RetracesSchema documents documents' follow follow' within (place.item index) value)
    (others : RetracesItems documents documents' follow follow' within place (index + 1) items) :
    RetracesItems documents documents' follow follow' within place index (value :: items) := by
  intro items' length each
  cases items' with
  | nil => cases length
  | cons item' rest' =>
    -- Behind the first item, positions are counted from the next one.
    rw [branches, branches]
    refine (first item' (each 0 value item' rfl rfl)).bind fun _ => ?_
    refine (others rest' (Nat.succ.inj length) fun i here there held held' => ?_).bind fun _ => .pure
    rw [Nat.add_right_comm]
    exact each (i + 1) here there held held'

/-- Schemas are read along if references are followed along. -/
theorem retraces_schema (parallel : documents.Parallel documents' within)
    (follows : ∀ target, within target →
      Retraces SchemaTree.Concurs (follow target) (follow' target)) (place : Place) (value : Json) :
    RetracesSchema documents documents' follow follow' within place value := by
  -- The parts of a schema are read one inside the other, so the induction follows them.
  suffices all : (∀ place value, RetracesSchema documents documents' follow follow' within place value) ∧
      ∀ place siblings members,
        RetracesMembers documents documents' follow follow' within place siblings members from
    all.1 place value
  refine parts_induction (RetracesMember documents documents' follow follow' within)
    (RetracesEntries documents documents' follow follow' within)
    (RetracesItems documents documents' follow follow' within)
    (fun _ value => retraces_boolean value) (fun _ _ => retraces_object parallel)
    (fun _ _ => retraces_other) ?noMembers (fun _ _ _ _ _ => retraces_members) ?invalid
    (fun _ _ _ _ _ => retraces_nested parallel) (fun _ _ _ _ _ => retraces_branches parallel)
    (fun _ _ _ _ _ => retraces_table parallel) (fun _ _ _ => retraces_reference parallel follows)
    (fun _ _ _ _ => retraces_plain parallel) ?noEntries (fun _ _ _ _ => retraces_entries) ?noItems
    (fun _ _ _ _ => retraces_items)
  -- The remaining parts hold nothing, so both sides return at once.
  case noMembers =>
    rintro place siblings siblings' _ _ _ ⟨⟩
    rw [clauses, clauses]
    exact .pure
  case invalid =>
    intro place siblings key value problem nested siblings' value' _ _ _
    rw [keyword_of_invalid nested]
    exact .throw
  case noEntries =>
    rintro place _ ⟨⟩
    rw [entries, entries]
    exact .pure
  case noItems =>
    intro place index items' length _
    rw [List.length_nil, eq_comm, List.length_eq_zero_iff] at length
    rw [length, branches, branches]
    exact .pure

/-- A place is read along with all that it leads to. -/
theorem retraces_follow (parallel : documents.Parallel documents' within) {pending : List Place}
    (inside : within place) :
    Retraces SchemaTree.Concurs (Reading.follow documents pending place)
      (Reading.follow documents' pending place) := by
  -- Inside, fewer places are pending, so the induction is on their number.
  induction size : pending.length using Nat.strong_induction_on generalizing pending place with
  | _ size ih =>
    subst size
    intro tree tree' concurs id last ran
    -- A place that one tree knows the other one knows too.
    cases fresh : tree.find? place.location with
    | some known =>
      rw [follow_of_known fresh] at ran
      cases ran
      exact ⟨tree', follow_of_known (concurs.find?_eq ▸ fresh), concurs⟩
    | none =>
      rw [follow_of_fresh fresh] at ran
      rw [follow_of_fresh (concurs.find?_eq ▸ fresh)]
      cases found : documents.valueAt? place with
      | none =>
        rw [found] at ran
        cases ran
      | some value =>
        simp only [found] at ran
        -- Only a pending place was read.
        by_cases waiting : place ∈ pending
        · rw [if_pos waiting] at ran
          have there : ∃ value', documents'.valueAt? place = some value' ∧ value.Upgrades value' := by
            rcases parallel.upgrades.valueAt? found with there | flat
            · exact there
            · -- Of the parts of a pair only the flag is a schema, and it is left alone.
              cases value with
              | bool held => exact ⟨.bool held, parallel.booleans place held inside found, .same _⟩
              | array | object => exact flat.elim
              | _ =>
                rw [schema] at ran
                · replace ran := unlessKnown_apply.symm.trans ran
                  rw [fresh] at ran
                  cases ran
                all_goals simp
          obtain ⟨value', there, upgrades⟩ := there
          simp only [there, if_pos waiting]
          -- Inside, one place less is pending.
          refine retraces_schema parallel (fun target reached => ?_) place value value'
            ⟨inside, found, there, upgrades⟩ tree tree' concurs id last ran
          exact ih _ (length_erase_lt waiting) reached rfl
        · rw [if_neg waiting] at ran
          cases ran

/-- The root of a document is read along. -/
theorem retraces_root (parallel : documents.Parallel documents' within) {uri : String}
    (inside : ∀ document, documents.canonical? uri = some document → within ⟨document, ""⟩) :
    Retraces SchemaTree.Concurs (documents.root uri) (documents'.root uri) := by
  unfold Documents.root
  rw [← parallel.upgrades.canonical?_eq, ← parallel.upgrades.targets_eq]
  cases named : documents.canonical? uri with
  | none => exact .throw
  | some document => exact retraces_follow parallel (inside document named)

end

end Reading

variable {sources sources' : List SourceDocument}

/-- What is registered was handed in under its own URI. -/
theorem mem_registerDocuments {entry : String × Json}
    (listed : entry ∈ (registerDocuments sources).2.contents.entries) :
    ∃ source ∈ sources, entry = (source.ownUri, source.content) := by
  induction sources using List.reverseRecOn with
  | nil => cases listed
  | append_singleton sources source ih =>
    -- A document joins the others or replaces the one that was known by its URI.
    rw [registerDocuments_concat] at listed
    rcases Keyed.mem_insert listed with rfl | listed
    · exact ⟨source, by simp, rfl⟩
    · obtain ⟨other, member, rfl⟩ := ih listed
      exact ⟨other, List.mem_append_left _ member, rfl⟩

/-- In documents with proper contents no name stands twice in an object. -/
theorem distinct_registerDocuments (proper : ∀ source ∈ sources, source.content.isProper = true) :
    (registerDocuments sources).2.Distinct := by
  intro place members found
  obtain ⟨content, here, found⟩ := Option.bind_eq_some_iff.mp found
  obtain ⟨source, member, same⟩ := mem_registerDocuments (mem_of_lookup_eq_some here)
  have content : content.isProper = true := (Prod.mk.inj same).2 ▸ proper source member
  have inner := Pointer.select_keeps (fun part => part.isProper = true)
    (fun _ _ => Json.isProper_of_mem_items) (fun _ _ _ => Json.isProper_of_mem_members) found content
  exact of_decide_eq_true (Bool.and_eq_true_iff.mp inner).1

/-- Whether a place is read together with the roots of some documents. -/
def ReadWith (sources : List SourceDocument) (place : Place) : Prop :=
  ∃ source ∈ sources, (registerDocuments sources).2.Reaches ⟨source.ownUri, ""⟩ place

/-- Whether what lies at a place is left alone because it is no part of a pair: a boolean that stays, or
an object that keeps only values with nothing inside. -/
def Documents.spares (documents documents' : Documents) (place : Place) : Bool :=
  match documents.valueAt? place with
  | some (.object members) => members.all fun (key, value) => !Reading.isKept key || decide value.IsFlat
  | some (.bool value) =>
    match documents'.valueAt? place with
    | some (.bool value') => value == value'
    | _ => false
  | _ => false

/-- What must be left alone is left alone if it is so at all places of a list that schemas do not lead
out of. -/
theorem shelters_of_places (upgrades : List.Forall₂ SourceDocument.Upgrades sources sources')
    (places : List Place) (roots : ∀ source ∈ sources, ⟨source.ownUri, ""⟩ ∈ places)
    (onward : ∀ place ∈ places, ∀ next ∈ (registerDocuments sources).2.onward place, next ∈ places)
    (spared : ∀ place ∈ places,
      (registerDocuments sources).2.spares (registerDocuments sources').2 place = true) :
    (registerDocuments sources).2.Shelters (registerDocuments sources').2 (ReadWith sources) := by
  obtain ⟨-, upgrades⟩ := upgrades_registerDocuments upgrades
  -- All that is read lies in the list, since it starts there and leads nowhere else.
  have listed {place : Place} (read : ReadWith sources place) : place ∈ places := by
    obtain ⟨source, member, reaches⟩ := read
    induction reaches with
    | refl => exact roots source member
    | tail _ leads ih => exact onward _ ih _ leads
  have booleans (place : Place) (value : Bool) (read : ReadWith sources place)
      (found : (registerDocuments sources).2.valueAt? place = some (.bool value)) :
      (registerDocuments sources').2.valueAt? place = some (.bool value) := by
    have held := spared place (listed read)
    -- A boolean that is spared is found unchanged in the other documents.
    rw [Documents.spares, found] at held
    dsimp only at held
    split at held
    · rename_i value' found'
      rw [found', eq_of_beq held]
    · cases held
  refine ⟨booleans, fun place key read kept => ?_⟩
  -- A kept value that is spared has nothing inside, so that nothing of it is upgraded.
  have held := spared place (listed read)
  rw [Documents.spares] at held
  split at held
  · rename_i members found
    -- The object is upgraded as a whole, and its member is looked up on both sides.
    rcases upgrades.valueAt? found with ⟨value', found', inner⟩ | flat
    · obtain ⟨sides, members', rfl, each⟩ := inner.of_object
      rw [Documents.valueAt?_member found, Documents.valueAt?_member found',
        lookup_upgradeSides (Reading.apart_of_isKept kept)]
      cases stated : members.lookup key with
      | none =>
        cases stated' : members'.lookup key with
        | none => rfl
        | some value' =>
          obtain ⟨value, stated'', -⟩ := each.lookup' stated'
          cases stated.symm.trans stated''
      | some value =>
        obtain ⟨value', stated', here⟩ := each.lookup stated
        have flat := List.all_eq_true.mp held _ (mem_of_lookup_eq_some stated)
        simp only [kept, Bool.not_true, Bool.false_or, decide_eq_true_eq] at flat
        rw [stated', here.eq_of_isFlat flat]
    · exact flat.elim
  · rename_i value found
    rw [Documents.valueAt?_member_of_bool found,
      Documents.valueAt?_member_of_bool (booleans place value read found)]
  · cases held

/-- The roots of upgraded documents are read along. -/
theorem retraces_readRoots (proper : ∀ source ∈ sources, source.content.isProper = true)
    (upgrades : List.Forall₂ SourceDocument.Upgrades sources sources')
    (shelters : (registerDocuments sources).2.Shelters (registerDocuments sources').2
      (ReadWith sources)) :
    Retraces SchemaTree.Concurs (readRoots sources) (readRoots sources') := by
  obtain ⟨inputs, upgrades⟩ := upgrades_registerDocuments upgrades
  have parallel : (registerDocuments sources).2.Parallel (registerDocuments sources').2
      (ReadWith sources) :=
    { shelters with
      upgrades
      distinct := distinct_registerDocuments proper
      onward := fun ⟨source, member, reaches⟩ leads => ⟨source, member, reaches.tail leads⟩ }
  unfold readRoots
  dsimp only
  -- The same documents are read, in the same order.
  rw [← inputs]
  refine .mapM fun input listed => ?_
  rw [inputs_registerDocuments] at listed
  obtain ⟨source, member, rfl⟩ := List.mem_map.mp listed
  refine (Reading.retraces_root parallel fun document named => ?_).bind fun _ => .pure
  -- A document is registered under its own URI.
  have registered : (registerDocuments sources).2.contents.contains source.ownUri = true := by
    rw [Keyed.contains, find?_registerDocuments]
    exact isSome_latest? member
  rw [Documents.canonical?, if_pos registered] at named
  cases named
  exact ⟨source, member, .refl⟩

end SchemaClasses
