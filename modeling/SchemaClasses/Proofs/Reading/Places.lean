import Mathlib.Data.List.Nodup
import SchemaClasses.Documents
import SchemaClasses.Proofs.Json
import SchemaClasses.Proofs.Pointer
import SchemaClasses.SchemaTree

/-! Places in documents: what lies at the place of a member or an item, which references can be met there,
and how the name of a member gets through its pointer. -/

namespace SchemaClasses

/-- A pair of a list whose keys differ is found under its key. -/
theorem lookup_of_mem_of_nodup {β : Type} {pairs : List (String × β)} {key : String} {value : β}
    (apart : (pairs.map (·.1)).Nodup) (member : (key, value) ∈ pairs) :
    pairs.lookup key = some value := by
  induction pairs with
  | nil => cases member
  | cons first rest ih =>
    obtain ⟨here, apart⟩ := List.nodup_cons.mp apart
    -- The pair is the first one, or it stands behind one with another key.
    rcases List.mem_cons.mp member with rfl | member
    · simp
    · have different : key ≠ first.1 := by
        rintro rfl
        exact here (List.mem_map.mpr ⟨(first.1, value), member, rfl⟩)
      rw [List.lookup_cons, beq_false_of_ne different]
      exact ih apart member

namespace Json

mutual

/-- Whether a value can stand in a document: the members of an object have different names, and whole
numbers have 64 bits. -/
def isProper : Json → Bool
  | .integer n => -0x8000000000000000 ≤ n && n < 0x10000000000000000
  | .array items => properItems items
  | .object members => decide (members.map (·.1)).Nodup && properMembers members
  | _ => true

/-- Whether all items of an array can stand in a document. -/
def properItems : List Json → Bool
  | [] => true
  | item :: rest => item.isProper && properItems rest

/-- Whether all values of an object can stand in a document. -/
def properMembers : List (String × Json) → Bool
  | [] => true
  | (_, value) :: rest => value.isProper && properMembers rest

end

/-- The items of a proper array are proper. -/
theorem isProper_of_mem_items {items : List Json} {item : Json}
    (proper : isProper (.array items) = true) (member : item ∈ items) : item.isProper = true := by
  rw [isProper] at proper
  induction items with
  | nil => cases member
  | cons first rest ih =>
    obtain ⟨here, there⟩ := Bool.and_eq_true_iff.mp proper
    -- An item is the first one or one of the rest, and both parts of the conjunction are known.
    rcases List.mem_cons.mp member with rfl | member
    · exact here
    · exact ih there member

/-- The values of a proper object are proper. -/
theorem isProper_of_mem_members {members : List (String × Json)} {name : String} {value : Json}
    (proper : isProper (.object members) = true) (member : (name, value) ∈ members) :
    value.isProper = true := by
  replace proper := (Bool.and_eq_true_iff.mp proper).2
  induction members with
  | nil => cases member
  | cons first rest ih =>
    obtain ⟨here, there⟩ := Bool.and_eq_true_iff.mp proper
    -- A member is the first one or one of the rest, and both parts of the conjunction are known.
    rcases List.mem_cons.mp member with rfl | member
    · exact here
    · exact ih member there

/-- A member of a proper object is found under its name. -/
theorem lookup_of_mem_members {members : List (String × Json)} {name : String} {value : Json}
    (proper : isProper (.object members) = true) (member : (name, value) ∈ members) :
    members.lookup name = some value :=
  lookup_of_mem_of_nodup (of_decide_eq_true (Bool.and_eq_true_iff.mp proper).1) member

end Json

/-- What holds of a value and of all its parts holds of what a pointer selects. -/
theorem Pointer.select_keeps (holds : Json → Prop) {value part : Json} {pointer : String}
    (items : ∀ items item, holds (.array items) → item ∈ items → holds item)
    (members : ∀ members name member, holds (.object members) → (name, member) ∈ members →
      holds member)
    (found : select value pointer = some part) (held : holds value) : holds part := by
  -- The induction is on the tokens, each of which leads one step further inside.
  have steps (tokens : List String) (value : Json) (held : holds value)
      (found : tokens.foldlM step value = some part) : holds part := by
    induction tokens generalizing value with
    | nil =>
      cases found
      exact held
    | cons token rest ih =>
      obtain ⟨next, here, found⟩ := Option.bind_eq_some_iff.mp found
      refine ih next ?_ found
      -- One step leads to a member of an object or to an item of an array, and nowhere else.
      cases value with
      | object entries => exact members entries token next held (mem_of_lookup_eq_some here)
      | array entries =>
        obtain ⟨index, -, here⟩ := Option.bind_eq_some_iff.mp here
        exact items entries next held (List.mem_of_getElem? here)
      | _ => cases here
  -- An empty pointer selects the value itself, and one without a slash nothing.
  unfold select at found
  split at found
  · cases found
    exact held
  · exact steps _ value held found
  · cases found

namespace Documents

/-- Documents as they are handed in: their own URIs have no `#`, and their contents are proper. -/
structure Proper (documents : Documents) : Prop where
  unhashed : ∀ uri document, documents.canonical? uri = some document → '#' ∉ document.toList
  content : ∀ uri content, (uri, content) ∈ documents.contents.entries → content.isProper = true

variable {documents : Documents} {place : Place} {value : Json}

/-- Documents are proper if their entries are, and if the names that stand for their own URIs are. -/
theorem Proper.of_entries
    (contents : ∀ entry ∈ documents.contents.entries,
      '#' ∉ entry.1.toList ∧ entry.2.isProper = true)
    (aliases : ∀ entry ∈ documents.aliases.entries, '#' ∉ entry.2.toList) : documents.Proper where
  unhashed uri document named := by
    -- A document is named by a URI of its own or by one that stands for it.
    unfold canonical? at named
    split at named
    · rename_i present
      cases named
      obtain ⟨content, found⟩ := Option.isSome_iff_exists.mp present
      exact (contents _ (mem_of_lookup_eq_some found)).1
    · exact aliases _ (mem_of_lookup_eq_some named)
  content uri content member := (contents _ member).2

/-- What lies at a place in proper documents is proper. -/
theorem Proper.valueAt? (proper : documents.Proper) (found : documents.valueAt? place = some value) :
    value.isProper = true := by
  obtain ⟨content, here, found⟩ := Option.bind_eq_some_iff.mp found
  exact Pointer.select_keeps (fun part => part.isProper = true)
    (fun _ _ => Json.isProper_of_mem_items) (fun _ _ _ => Json.isProper_of_mem_members) found
    (proper.content place.document content (mem_of_lookup_eq_some here))

/-- The place of a member is one step inside. -/
theorem valueAt?_member_eq {name : String} :
    documents.valueAt? (place.member name) =
      (documents.valueAt? place).bind fun value => Pointer.step value name := by
  unfold valueAt?
  rw [Option.bind_assoc]
  refine Option.bind_congr fun content _ => ?_
  rw [Place.member, Pointer.select_append (Pointer.slash_notMem_escape name), Pointer.unescape_escape]

/-- What lies at the place of a member is what is found under its name. -/
theorem valueAt?_member {members : List (String × Json)} {name : String}
    (found : documents.valueAt? place = some (.object members)) :
    documents.valueAt? (place.member name) = members.lookup name := by
  rw [valueAt?_member_eq, found, Option.bind_some, Pointer.step]

/-- A member of an object lies at the place of its name. -/
theorem Proper.valueAt?_member (proper : documents.Proper) {members : List (String × Json)}
    {name : String} (found : documents.valueAt? place = some (.object members))
    (member : (name, value) ∈ members) : documents.valueAt? (place.member name) = some value :=
  (Documents.valueAt?_member found).trans (Json.lookup_of_mem_members (proper.valueAt? found) member)

/-- An item of an array lies at the place of its number. -/
theorem valueAt?_item {items : List Json} {index : Nat}
    (found : documents.valueAt? place = some (.array items)) (item : items[index]? = some value) :
    documents.valueAt? (place.item index) = some value := by
  obtain ⟨content, here, found⟩ := Option.bind_eq_some_iff.mp found
  refine Option.bind_eq_some_iff.mpr ⟨content, here, ?_⟩
  rw [Place.item, Pointer.select_append (Pointer.notMem_toString (by decide) index), found,
    Pointer.unescape_of_notMem (Pointer.notMem_toString (by decide) index), Option.bind_some,
    Pointer.step, Pointer.index?_toString]
  exact item

/-- Whether the places that references in a value lead to are among all places that references lead
to. -/
def Lists (documents : Documents) (document : String) (value : Json) : Prop :=
  ∀ text ∈ references value, ∀ target, documents.resolve? document text = some target →
    target ∈ documents.targets

/-- The references inside an array are those inside its items. -/
theorem mem_references_array {items : List Json} {text : String} :
    text ∈ references (.array items) ↔ ∃ item ∈ items, text ∈ references item := by
  rw [references]
  induction items with
  | nil => simp [itemReferences]
  | cons first rest ih => simp [itemReferences, ih]

/-- The references inside an object are the texts under a `$ref` and those inside its members. -/
theorem mem_references_object {members : List (String × Json)} {text : String} :
    text ∈ references (.object members) ↔
      ∃ key value, (key, value) ∈ members ∧
        (key = "$ref" ∧ value = .string text ∨ text ∈ references value) := by
  -- One member contributes its own text, if it is a reference, and those inside its value.
  have cons (key : String) (value : Json) (rest : List (String × Json)) :
      text ∈ memberReferences ((key, value) :: rest) ↔
        (key = "$ref" ∧ value = .string text ∨ text ∈ references value) ∨
          text ∈ memberReferences rest := by
    rw [memberReferences.eq_def ((key, value) :: rest)]
    dsimp only
    rw [List.mem_append, List.mem_append]
    refine or_congr_left (or_congr_left ?_)
    -- A text under `$ref` is a reference itself, and it has none inside.
    split
    · simp [eq_comm]
    · rename_i other
      simpa using other text
  rw [references]
  induction members with
  | nil => simp [memberReferences]
  | cons first rest ih =>
    obtain ⟨key, value⟩ := first
    rw [cons]
    constructor
    · -- A reference belongs to the first member or to one of the rest.
      rintro (held | held)
      · exact ⟨key, value, List.mem_cons_self, held⟩
      · obtain ⟨key', value', member, held⟩ := ih.mp held
        exact ⟨key', value', List.mem_cons_of_mem _ member, held⟩
    · rintro ⟨key', value', member, held⟩
      rcases List.mem_cons.mp member with same | member
      · obtain ⟨rfl, rfl⟩ := Prod.mk.inj same
        exact .inl held
      · exact .inr (ih.mpr ⟨key', value', member, held⟩)

/-- The places that references in a part lead to are among those that lead from the whole. -/
theorem Lists.of_part {document : String} {whole part : Json} (lists : documents.Lists document whole)
    (inside : ∀ text ∈ references part, text ∈ references whole) : documents.Lists document part :=
  fun text member => lists text (inside text member)

/-- References among some members are references among all. -/
theorem Lists.members {document : String} {members part : List (String × Json)}
    (lists : documents.Lists document (.object members)) (inside : part ⊆ members) :
    documents.Lists document (.object part) :=
  lists.of_part fun _ held => by
    obtain ⟨key, value, member, held⟩ := mem_references_object.mp held
    exact mem_references_object.mpr ⟨key, value, inside member, held⟩

/-- References among some items are references among all. -/
theorem Lists.items {document : String} {items part : List Json}
    (lists : documents.Lists document (.array items)) (inside : part ⊆ items) :
    documents.Lists document (.array part) :=
  lists.of_part fun _ held => by
    obtain ⟨item, member, held⟩ := mem_references_array.mp held
    exact mem_references_array.mpr ⟨item, inside member, held⟩

theorem Lists.item {document : String} {items : List Json} {item : Json}
    (lists : documents.Lists document (.array items)) (member : item ∈ items) :
    documents.Lists document item :=
  lists.of_part fun _ held => mem_references_array.mpr ⟨item, member, held⟩

theorem Lists.member {document name : String} {members : List (String × Json)}
    (lists : documents.Lists document (.object members)) (member : (name, value) ∈ members) :
    documents.Lists document value :=
  lists.of_part fun _ held => mem_references_object.mpr ⟨name, value, member, .inr held⟩

/-- All places that references at a place lead to are known beforehand. -/
theorem lists_of_valueAt? (found : documents.valueAt? place = some value) :
    documents.Lists place.document value := by
  obtain ⟨content, here, found⟩ := Option.bind_eq_some_iff.mp found
  refine Pointer.select_keeps (documents.Lists place.document)
    (fun _ _ lists member => lists.item member) (fun _ _ _ lists member => lists.member member) found
    fun text member target leads => ?_
  refine List.mem_flatMap.mpr ⟨(place.document, content), mem_of_lookup_eq_some here, ?_⟩
  exact List.mem_filterMap.mpr ⟨text, member, leads⟩

end Documents

/-- The parts of a location are those of its place: the document has no `#`, so the first one stands before the
pointer. -/
theorem Place.cutOnce_location {place : Place} (plain : '#' ∉ place.document.toList) :
    cutOnce '#' place.location = some (place.document, place.pointer) :=
  cutOnce_eq (by simp [Place.location]) plain

/-- The last name of a schema at the place of a member is the name of the member. -/
theorem SchemaTree.lastSegment_member {tree : SchemaTree} {id : SchemaId} {place : Place} {name : String}
    (plain : '#' ∉ place.document.toList) (here : tree.location id = (place.member name).location) :
    tree.lastSegment id = name := by
  -- The document has no `#`, so the location is cut behind it.
  have parts : cutOnce '#' (tree.location id) = some (place.document, (place.member name).pointer) :=
    here ▸ (place.member name).cutOnce_location plain
  -- The name is escaped, so that its token is the last piece.
  have piece : lastPiece '/' (place.member name).pointer = Pointer.escape name :=
    lastPiece_eq place.pointer.toList (by simp [Place.member]) (Pointer.slash_notMem_escape name)
  have more : (place.member name).pointer ≠ "" := by
    intro empty
    simpa [Place.member] using congrArg String.toList empty
  simp only [lastSegment, parts, Option.getD_some, beq_false_of_ne more, Bool.false_eq_true, if_false,
    piece, Pointer.unescape_escape]

/-- Whether a name gets through the pointer to a member: its token is the name with tildes and then
slashes replaced, is a single token and that of no other name; the pointer selects the member of that
name, and nothing if there is none; and schemas at the place have the name as their last one. -/
structure Place.Addresses (place : Place) (name : String) : Prop where
  written : (Pointer.escape name).toList =
    replaceChar '/' ['~', '1'] (replaceChar '~' ['~', '0'] name.toList)
  whole : '/' ∉ (Pointer.escape name).toList
  alone : ∀ other, Pointer.escape other = Pointer.escape name → other = name
  member : ∀ (documents : Documents) members, documents.valueAt? place = some (.object members) →
    documents.valueAt? (place.member name) = members.lookup name
  step : ∀ documents : Documents, documents.valueAt? (place.member name) =
    (documents.valueAt? place).bind fun value => Pointer.step value name
  last : ∀ (tree : SchemaTree) id, tree.location id = (place.member name).location →
    tree.lastSegment id = name

/-- Every name gets through every pointer into a document whose URI has no `#`. -/
theorem Place.addresses_member {place : Place} (plain : '#' ∉ place.document.toList) (name : String) :
    place.Addresses name where
  written := Pointer.toList_escape name
  whole := Pointer.slash_notMem_escape name
  alone _ same := Pointer.escape_injective same
  member _ _ found := Documents.valueAt?_member found
  step _ := Documents.valueAt?_member_eq
  last _ _ here := SchemaTree.lastSegment_member plain here

/-- A name of separators and of what escapes look like gets through. -/
theorem Place.addresses_member_escapes :
    '#' ∉ "file:///s/a.json".toList ∧
      (Place.member ⟨"file:///s/a.json", "/properties"⟩ "~01/#~0").location =
        "file:///s/a.json#/properties/~001~1#~00" ∧
      Place.Addresses ⟨"file:///s/a.json", "/properties"⟩ "~01/#~0" :=
  ⟨by decide, by decide, Place.addresses_member (by decide) "~01/#~0"⟩

end SchemaClasses
