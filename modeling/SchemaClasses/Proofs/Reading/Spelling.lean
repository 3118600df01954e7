import SchemaClasses.Proofs.Reading.Reach
import SchemaClasses.Proofs.Reading.Trees

/-! What a schema must hold in order to say what a document says at its place, keyword by keyword, and
that keywords without schemas inside are read so. -/

namespace SchemaClasses

/-- The keyword of a bound that admits its value, unless a sibling excludes it. -/
def Side.key : Side → String
  | minimum => "minimum"
  | maximum => "maximum"

/-- The keyword of a bound that excludes its value; a boolean there is for the other keyword. -/
def Side.exclusiveKey : Side → String
  | minimum => "exclusiveMinimum"
  | maximum => "exclusiveMaximum"

/-- The keyword of a smallest count. -/
def Countable.leastKey : Countable → String
  | length => "minLength"
  | items => "minItems"
  | properties => "minProperties"

/-- The keyword of a largest count. -/
def Countable.mostKey : Countable → String
  | length => "maxLength"
  | items => "maxItems"
  | properties => "maxProperties"

/-- The keywords that are recognised whatever their value is. -/
def keywordNames : List String :=
  ["$ref", "type", "const", "enum", "format", "pattern", "minimum", "maximum", "multipleOf",
    "minLength", "maxLength", "minItems", "maxItems", "minProperties", "maxProperties", "uniqueItems",
    "default", "examples", "example", "properties", "patternProperties", "additionalProperties",
    "items", "allOf", "anyOf", "oneOf", "not"]

/-- Whether a member of a schema object is recognised as a keyword of its own. A boolean under an
exclusive bound only modifies the bound beside it, and a boolean under `required` says nothing. -/
def isRecognised (key : String) (value : Json) : Bool :=
  if key ∈ ["exclusiveMinimum", "exclusiveMaximum", "required"] then value.bool?.isNone
  else decide (key ∈ keywordNames) || "x-".toList.isPrefixOf key.toList

/-- The text of a reference before its first `#`, which names a document. -/
def documentPart (reference : String) : String := ((cutOnce '#' reference).getD (reference, "")).1

/-- The text of a reference behind its first `#`, which points into the document. -/
def fragmentPart (reference : String) : String := ((cutOnce '#' reference).getD (reference, "")).2

/-- The own URI of the document that is named inside another one; no name stands for that one. -/
def Documents.named? (documents : Documents) (base name : String) : Option String :=
  if name == "" then some base
  else documents.canonical? (Uri.resolve base name) <|> documents.canonical? name

section

variable (documents : Documents) (tree : SchemaTree)

/-- Whether the members of the object at a place have these schemas, each at the place of its name. -/
def SchemaTree.Tabulates (place : Place) (value : Json) (entries : List (String × SchemaId)) : Prop :=
  ∃ members, value = .object members ∧
    List.Forall₂ (fun member entry =>
      entry.1 = member.1 ∧ tree.find? (place.member member.1).location = some entry.2) members entries

/-- Whether the items of the array at a place have these schemas, each at the place of its number. -/
def SchemaTree.Enumerates (place : Place) (value : Json) (ids : List SchemaId) : Prop :=
  ∃ items, value = .array items ∧
    List.Forall₂ (fun index id => tree.find? (place.item index).location = some id)
      (List.range items.length) ids

/-- Whether a keyword says what one member of the schema object at a place says. The schemas inside
are those at the places under the member, and a reference leads to the schema at the place that its
text names. -/
def Keyword.Spells (place : Place) (siblings : List (String × Json)) (key : String) (value : Json) :
    Keyword → Prop
  | .reference text target => key = "$ref" ∧ value = .string text ∧
      ∃ document, documents.named? place.document (documentPart text) = some document ∧
        tree.find? (Place.location ⟨document, fragmentPart text⟩) = some target
  | .types names => key = "type" ∧
      (value = .array (names.map fun type => .string type.name) ∨
        ∃ type, names = [type] ∧ value = .string type.name)
  | .constant held => key = "const" ∧ value = held
  | .enumeration values => key = "enum" ∧ value = .array values
  | .format name => key = "format" ∧ value = .string name
  | .pattern text => key = "pattern" ∧ value = .string text
  | .bound side limit => Quantity.ofJson? value = some limit.value ∧
      (key = side.key ∧
          (limit.exclusive = true ↔ siblings.lookup side.exclusiveKey = some (.bool true)) ∨
        key = side.exclusiveKey ∧ limit.exclusive = true)
  | .multipleOf number => key = "multipleOf" ∧ Quantity.ofJson? value = some number
  | .minCount counted least => key = counted.leastKey ∧ Reading.count? value = some least
  | .maxCount counted most => key = counted.mostKey ∧ Reading.count? value = some most
  | .uniqueItems unique => key = "uniqueItems" ∧ value = .bool unique
  | .default held => key = "default" ∧ value = held
  | .examples values => key = "examples" ∧ value = .array values ∨ key = "example" ∧ values = [value]
  | .required names => key = "required" ∧ value = .array (names.map .string)
  | .properties entries => key = "properties" ∧ tree.Tabulates (place.member key) value entries
  | .patternProperties entries =>
      key = "patternProperties" ∧ tree.Tabulates (place.member key) value entries
  | .additionalProperties inner =>
      key = "additionalProperties" ∧ tree.find? (place.member key).location = some inner
  | .items inner => key = "items" ∧ tree.find? (place.member key).location = some inner
  | .allOf ids => key = "allOf" ∧ tree.Enumerates (place.member key) value ids
  | .anyOf ids => key = "anyOf" ∧ tree.Enumerates (place.member key) value ids
  | .oneOf ids => key = "oneOf" ∧ tree.Enumerates (place.member key) value ids
  | .negation inner => key = "not" ∧ tree.find? (place.member key).location = some inner
  | .extension name held => "x-".toList.isPrefixOf key.toList = true ∧ key = name ∧ value = held

/-- Whether a clause stands at the place of a member and says what it says. -/
def Clause.Spells (place : Place) (siblings : List (String × Json)) (member : String × Json)
    (clause : Clause) : Prop :=
  clause.location = (place.member member.1).location ∧
    clause.keyword.Spells documents tree place siblings member.1 member.2

/-- Whether a schema says what the value at its place says: a boolean itself, or an object with one
clause for each recognised member, in the order of the document. -/
inductive SchemaBody.Spells (place : Place) : Json → SchemaBody → Prop where
  | boolean (held : Bool) : Spells place (.bool held) (.boolean held)
  | object (members : List (String × Json)) (clauses : List Clause)
      (each : List.Forall₂ (Clause.Spells documents tree place members)
        (members.filter fun member => isRecognised member.1 member.2) clauses) :
      Spells place (.object members) (.object (.object members) clauses)

/-- Whether a schema stands at a place and says what the documents say there. -/
def SchemaTree.Renders (id : SchemaId) : Prop :=
  ∃ place value, tree.location id = place.location ∧ documents.valueAt? place = some value ∧
    (tree.schema id).body.Spells documents tree place value

end

section

variable {documents : Documents} {first last : SchemaTree} {place : Place}
variable {siblings : List (String × Json)} {key : String} {value : Json}

/-- A reference leads to the document that it names, as far as it points there. -/
theorem Documents.of_resolve? {base text : String} {goal : Place}
    (found : documents.resolve? base text = some goal) :
    documents.named? base (documentPart text) = some goal.document ∧
      fragmentPart text = goal.pointer := by
  -- A fragment is a pointer if it is empty or starts with a slash; no other is followed.
  have reached {document : String} {name : Option String} (named : name = some document)
      (found : (if (fragmentPart text == "") = true ∨ (fragmentPart text).toList.head? = some '/' then
        some (Place.mk document (fragmentPart text)) else none) = some goal) :
      name = some goal.document ∧ fragmentPart text = goal.pointer := by
    split at found
    · cases found
      exact ⟨named, rfl⟩
    · cases found
  unfold resolve? at found
  dsimp only at found
  unfold named?
  -- Without a document part the reference stays in its own document.
  split at found
  · rename_i empty
    rw [documentPart, if_pos empty]
    exact reached rfl found
  · -- Otherwise the part is resolved to a document, or the reference leads nowhere.
    rename_i other
    rw [documentPart, if_neg other]
    obtain ⟨document, named, found⟩ := Option.bind_eq_some_iff.mp found
    exact reached named found

/-- What a keyword says it says as long as what is found stays found. -/
theorem Keyword.Spells.later {keyword : Keyword}
    (stays : ∀ location id, first.find? location = some id → last.find? location = some id)
    (spells : keyword.Spells documents first place siblings key value) :
    keyword.Spells documents last place siblings key value := by
  -- A table or an array is spelled the same as long as its schemas are still found.
  have table {place : Place} {entries : List (String × SchemaId)}
      (tabulates : first.Tabulates place value entries) : last.Tabulates place value entries := by
    obtain ⟨members, same, each⟩ := tabulates
    exact ⟨members, same, each.imp fun _ _ held => ⟨held.1, stays _ _ held.2⟩⟩
  have array {place : Place} {ids : List SchemaId}
      (enumerates : first.Enumerates place value ids) : last.Enumerates place value ids := by
    obtain ⟨items, same, each⟩ := enumerates
    exact ⟨items, same, each.imp fun _ _ found => stays _ _ found⟩
  -- Only keywords with schemas in them look at the tree.
  cases keyword with
  | reference text target =>
    obtain ⟨named, text, document, here, found⟩ := spells
    exact ⟨named, text, document, here, stays _ _ found⟩
  | properties entries | patternProperties entries => exact ⟨spells.1, table spells.2⟩
  | additionalProperties inner | items inner | negation inner =>
    exact ⟨spells.1, stays _ _ spells.2⟩
  | allOf ids | anyOf ids | oneOf ids => exact ⟨spells.1, array spells.2⟩
  | _ => exact spells

/-- What clauses say they say as long as what is found stays found. -/
theorem Clause.later_spells {members : List (String × Json)} {clauses : List Clause}
    (stays : ∀ location id, first.find? location = some id → last.find? location = some id)
    (each : List.Forall₂ (Clause.Spells documents first place siblings) members clauses) :
    List.Forall₂ (Clause.Spells documents last place siblings) members clauses :=
  each.imp fun _ _ spells => ⟨spells.1, spells.2.later stays⟩

/-- What a schema says it says as long as what is found stays found. -/
theorem SchemaBody.Spells.later {body : SchemaBody}
    (stays : ∀ location id, first.find? location = some id → last.find? location = some id)
    (spells : body.Spells documents first place value) : body.Spells documents last place value := by
  cases spells with
  | boolean held => exact .boolean held
  | object members clauses each =>
    exact .object members clauses (Clause.later_spells stays each)

end

namespace Reading

variable {documents : Documents} {tree : SchemaTree} {place : Place} {location : String}
variable {siblings : List (String × Json)} {key : String} {value : Json}

/-- Whether what was recorded for a member is what it says, or nothing because it is not recognised. -/
def Records (documents : Documents) (tree : SchemaTree) (place : Place)
    (siblings : List (String × Json)) (key : String) (value : Json) : Option Keyword → Prop
  | some keyword =>
    isRecognised key value = true ∧ keyword.Spells documents tree place siblings key value
  | none => isRecognised key value = false

section

variable {α β : Type}

/-- What was made of a result was made of a result that there is. -/
theorem exists_of_bind_eq_ok {step : Except Fault α} {make : α → β} {made : β}
    (read : (do return make (← step)) = Except.ok made) :
    ∃ held, step = .ok held ∧ made = make held := by
  cases step with
  | error _ => cases read
  | ok held =>
    cases read
    exact ⟨held, rfl, rfl⟩

/-- Items that are all read from what is written for them are read back. -/
theorem eq_map_of_mapM_eq_ok {read : α → Except Fault β} {write : β → α} {items : List α}
    {results : List β} (reads : ∀ item result, read item = .ok result → item = write result)
    (all : items.mapM read = .ok results) : items = results.map write := by
  induction items generalizing results with
  | nil =>
    cases all
    rfl
  | cons item rest ih =>
    rw [List.mapM_cons] at all
    -- A failure of one item is a failure of all.
    cases here : read item with
    | error _ =>
      rw [here] at all
      cases all
    | ok result =>
      rw [here] at all
      obtain ⟨others, there, rfl⟩ := exists_of_bind_eq_ok all
      rw [List.map_cons, ← reads item result here, ← ih there]

end

/-- A text is read from itself. -/
theorem eq_of_expectText {text : String} (read : expectText location value = .ok text) :
    value = .string text := by
  cases value with
  | string held =>
    cases read
    rfl
  | _ => cases read

/-- A number is read from a value that is one. -/
theorem ofJson?_of_expectNumber {number : Quantity} (read : expectNumber location value = .ok number) :
    Quantity.ofJson? value = some number := by
  unfold expectNumber at read
  split at read
  · rename_i held found
    cases read
    exact found
  · cases read

/-- A count is read from a value that is one. -/
theorem count?_of_expectCount {number : Nat} (read : expectCount location value = .ok number) :
    count? value = some number := by
  unfold expectCount at read
  split at read
  · rename_i held found
    cases read
    exact found
  · cases read

/-- A type is read from its name. -/
theorem eq_of_expectType {type : JsonType} (read : expectType location value = .ok type) :
    value = .string type.name := by
  unfold expectType at read
  cases named : expectText location value with
  -- A value that is no text is refused before its name is looked up.
  | error _ =>
    rw [named] at read
    cases read
  | ok name =>
    rw [named] at read
    simp only [bind, Except.bind] at read
    split at read
    · rename_i held found
      cases read
      -- The type of a name is one that has this name.
      have same : type.name = name := by simpa using List.find?_some found
      rw [eq_of_expectText named, same]
    · cases read

/-- Types are read from their names, or a single one from its name. -/
theorem eq_of_expectTypes {names : List JsonType} (read : expectTypes location value = .ok names) :
    value = .array (names.map fun type => .string type.name) ∨
      ∃ type, names = [type] ∧ value = .string type.name := by
  unfold expectTypes at read
  split at read
  · -- An array is read item by item, and any other value is tried as the name of one type.
    left
    rw [← eq_map_of_mapM_eq_ok (fun _ _ => eq_of_expectType) read]
  · right
    obtain ⟨type, named, rfl⟩ := exists_of_bind_eq_ok read
    exact ⟨type, rfl, eq_of_expectType named⟩

/-- Whether a sibling is `true` is a matter of that sibling alone. -/
theorem isTrue_iff : isTrue siblings key = true ↔ siblings.lookup key = some (.bool true) := by
  unfold isTrue
  cases siblings.lookup key with
  | none => simp
  | some held =>
    rw [Option.some_beq_some, Option.some.injEq]
    cases held with
    | bool held => cases held <;> simp [BEq.beq, Json.same]
    | _ => simp [BEq.beq, Json.same]

/-- A bound says what its member and the sibling for the same side say. -/
theorem records_sideBound (side : Side) {found : Option Keyword}
    (read : sideBound location siblings side side.exclusiveKey value = .ok found) :
    Records documents tree place siblings side.key value found := by
  obtain ⟨number, held, rfl⟩ := exists_of_bind_eq_ok read
  refine ⟨?_, ofJson?_of_expectNumber held, .inl ⟨rfl, isTrue_iff⟩⟩
  cases side <;> rfl

/-- A bound that excludes its value says so, and a boolean in its place is not recognised. -/
theorem records_exclusiveBound (side : Side) {found : Option Keyword}
    (read : exclusiveBound location side value = .ok found) :
    Records documents tree place siblings side.exclusiveKey value found := by
  unfold exclusiveBound at read
  split at read
  · -- A boolean is skipped, and then the key is not recognised.
    cases read
    cases side <;> rfl
  · rename_i notBool
    -- Any other value must be a number.
    obtain ⟨number, held, rfl⟩ := exists_of_bind_eq_ok read
    have recognised : value.bool?.isNone = true := by
      cases value with
      | bool truth => exact absurd rfl (notBool truth)
      | _ => rfl
    refine ⟨?_, ofJson?_of_expectNumber held, .inr ⟨rfl, rfl⟩⟩
    cases side <;> exact recognised

/-- A keyword without schemas inside says what its member says. -/
theorem records_plainKeyword {found : Option Keyword} (plain : nesting key value = .none)
    (direct : key ≠ "$ref") (read : plainKeyword location siblings key value = .ok found) :
    Records documents tree place siblings key value found := by
  obtain ⟨single, table, branch⟩ := notMem_of_nesting plain
  unfold plainKeyword at read
  split at read
  -- Each case is one keyword with one form of its value; a wrong form is refused.
  case h_4 | h_19 | h_22 | h_26 => cases read
  case h_1 =>
    obtain ⟨names, held, rfl⟩ := exists_of_bind_eq_ok read
    exact ⟨rfl, rfl, eq_of_expectTypes held⟩
  case h_5 | h_6 =>
    obtain ⟨text, held, rfl⟩ := exists_of_bind_eq_ok read
    exact ⟨rfl, rfl, eq_of_expectText held⟩
  case h_7 => exact records_sideBound .minimum read
  case h_8 => exact records_sideBound .maximum read
  case h_9 => exact records_exclusiveBound .minimum read
  case h_10 => exact records_exclusiveBound .maximum read
  case h_11 =>
    obtain ⟨number, held, rfl⟩ := exists_of_bind_eq_ok read
    exact ⟨rfl, rfl, ofJson?_of_expectNumber held⟩
  case h_12 | h_13 | h_14 | h_15 | h_16 | h_17 =>
    obtain ⟨number, held, rfl⟩ := exists_of_bind_eq_ok read
    exact ⟨rfl, rfl, count?_of_expectCount held⟩
  case h_21 =>
    cases read
    exact ⟨rfl, .inl ⟨rfl, rfl⟩⟩
  case h_23 =>
    cases read
    exact ⟨rfl, .inr ⟨rfl, rfl⟩⟩
  case h_24 =>
    obtain ⟨names, held, rfl⟩ := exists_of_bind_eq_ok read
    refine ⟨rfl, rfl, ?_⟩
    rw [← eq_map_of_mapM_eq_ok (fun _ _ => eq_of_expectText) held]
  case h_25 =>
    cases read
    rfl
  case h_27 =>
    -- Of all other members only extensions are recognised.
    have unnamed : key ∉ keywordNames := by
      simp_all [keywordNames, schemaKeywords, tableKeywords, branchKeywords]
    have unmodified : key ∉ ["exclusiveMinimum", "exclusiveMaximum", "required"] := by
      simp_all
    have recognised : isRecognised key value = "x-".toList.isPrefixOf key.toList := by
      rw [isRecognised, if_neg unmodified, decide_eq_false unnamed, Bool.false_or]
    dsimp only at read
    split at read
    · rename_i extension
      cases read
      exact ⟨recognised.trans extension, extension, rfl, rfl⟩
    · rename_i other
      cases read
      exact recognised.trans (Bool.eq_false_iff.mpr other)
  -- What is left holds its value as it is.
  all_goals
    cases read
    exact ⟨rfl, rfl, rfl⟩

end Reading

end SchemaClasses
