import SchemaClasses.Generation
import SchemaClasses.Proofs.Reading.Spelling

/-! Two dialects of exclusive bounds: a flag beside a bound, and a keyword of its own. What a value
becomes when bounds are brought from the first dialect into the second, and what that leaves alone. -/

namespace SchemaClasses

namespace Side

/-- Whether the members of an object pair a number for the bound with a flag that excludes it. -/
def isPaired (side : Side) (members : List (String × Json)) : Bool :=
  ((members.lookup side.key).bind Quantity.ofJson?).isSome
    && Reading.isTrue members side.exclusiveKey

/-- Members in the second dialect: the number moves to the exclusive keyword, and the flag goes. -/
def replace (side : Side) : List (String × Json) → List (String × Json)
  | [] => []
  | (key, value) :: rest =>
    if key = side.key then (side.exclusiveKey, value) :: replace side rest
    else if key = side.exclusiveKey ∧ value.bool?.isSome then replace side rest
    else (key, value) :: replace side rest

/-- The members of an object with their pair, if there is one, in the second dialect. -/
def upgrade (side : Side) (members : List (String × Json)) : List (String × Json) :=
  if side.isPaired members then side.replace members else members

end Side

/-- Members with the pairs of some sides in the second dialect. -/
def upgradeSides (sides : List Side) (members : List (String × Json)) : List (String × Json) :=
  sides.foldl (fun members side => side.upgrade members) members

namespace Json

/-- Whether a value is another one in which some pairs, of whichever objects, are in the second
dialect. -/
inductive Upgrades : Json → Json → Prop
  | same (value : Json) : Upgrades value value
  | array {items items' : List Json} (each : List.Forall₂ Upgrades items items') :
      Upgrades (.array items) (.array items')
  | object {members inner : List (String × Json)} (sides : List Side)
      (names : members.map (·.1) = inner.map (·.1))
      (each : List.Forall₂ Upgrades (members.map (·.2)) (inner.map (·.2))) :
      Upgrades (.object members) (.object (upgradeSides sides inner))

mutual

/-- The value with the pairs of all chosen objects in the second dialect; an object is chosen by the
names and numbers on the way to it. -/
def upgrade (chosen : List String → Bool) (way : List String) : Json → Json
  | .array items => .array (upgradeItems chosen way 0 items)
  | .object members =>
    .object (upgradeSides (if chosen way then [.minimum, .maximum] else [])
      (upgradeMembers chosen way members))
  | value => value

/-- The items of an array from a number on. -/
def upgradeItems (chosen : List String → Bool) (way : List String) (index : Nat) :
    List Json → List Json
  | [] => []
  | item :: rest =>
    item.upgrade chosen (way ++ [toString index]) :: upgradeItems chosen way (index + 1) rest

/-- The members of an object, under the names that they have. -/
def upgradeMembers (chosen : List String → Bool) (way : List String) :
    List (String × Json) → List (String × Json)
  | [] => []
  | (name, value) :: rest =>
    (name, value.upgrade chosen (way ++ [name])) :: upgradeMembers chosen way rest

end

/-- Only the names are kept where members are upgraded. -/
theorem names_upgradeMembers {chosen : List String → Bool} {way : List String}
    {members : List (String × Json)} :
    members.map (·.1) = (upgradeMembers chosen way members).map (·.1) := by
  induction members with
  | nil => rfl
  | cons member rest ih =>
    rw [List.map_cons, ih]
    rfl

mutual

/-- Whichever objects are chosen, the value is upgraded. -/
theorem upgrades_upgrade (chosen : List String → Bool) (way : List String) :
    (value : Json) → Upgrades value (value.upgrade chosen way)
  | .array items => by
    rw [upgrade]
    exact .array (upgrades_upgradeItems chosen way 0 items)
  | .object members => by
    rw [upgrade]
    exact .object _ names_upgradeMembers (upgrades_upgradeMembers chosen way members)
  | .null | .bool _ | .integer _ | .float _ | .string _ => .same _

theorem upgrades_upgradeItems (chosen : List String → Bool) (way : List String) (index : Nat) :
    (items : List Json) → List.Forall₂ Upgrades items (upgradeItems chosen way index items)
  | [] => .nil
  | item :: rest =>
    .cons (upgrades_upgrade chosen _ item) (upgrades_upgradeItems chosen way (index + 1) rest)

theorem upgrades_upgradeMembers (chosen : List String → Bool) (way : List String) :
    (members : List (String × Json)) → List.Forall₂ Upgrades (members.map (·.2))
      ((upgradeMembers chosen way members).map (·.2))
  | [] => .nil
  | (_, value) :: rest =>
    .cons (upgrades_upgrade chosen _ value) (upgrades_upgradeMembers chosen way rest)

end

example :
    (Json.object [("exclusiveMinimum", .bool true), ("title", .string "t"), ("minimum", .integer 5)]).upgrade
      (fun _ => true) [] = .object [("title", .string "t"), ("exclusiveMinimum", .integer 5)] := rfl

/-- Whether members are others with the same names and upgraded values. -/
def UpgradesInside (members inner : List (String × Json)) : Prop :=
  List.Forall₂ (fun member member' => member.1 = member'.1 ∧ Upgrades member.2 member'.2) members inner

/-- Whether nothing lies inside a value. -/
def IsFlat : Json → Prop
  | .array _ | .object _ => False
  | _ => True

instance (value : Json) : Decidable value.IsFlat :=
  match value with
  | .array _ | .object _ => isFalse id
  | .null | .bool _ | .integer _ | .float _ | .string _ => isTrue trivial

/-- Nothing lies inside a number. -/
theorem isFlat_of_ofJson? {value : Json} {number : Quantity}
    (read : Quantity.ofJson? value = some number) : value.IsFlat := by
  cases value with
  | array | object => cases read
  | _ => trivial

/-- Nothing lies inside a count. -/
theorem isFlat_of_count? {value : Json} {number : Nat}
    (read : Reading.count? value = some number) : value.IsFlat := by
  cases value with
  | array | object => cases read
  | _ => trivial

section

variable {value value' : Json} {members inner : List (String × Json)} {key : String}

theorem upgradesInside_iff :
    UpgradesInside members inner ↔
      members.map (·.1) = inner.map (·.1) ∧
        List.Forall₂ Upgrades (members.map (·.2)) (inner.map (·.2)) := by
  -- Names and values are compared pair by pair, so the two lists are split off together.
  induction members generalizing inner with
  | nil => cases inner <;> simp [UpgradesInside]
  | cons member rest ih =>
    cases inner with
    | nil => simp [UpgradesInside]
    | cons member' rest' =>
      simp only [UpgradesInside, List.map_cons, List.cons.injEq, List.forall₂_cons] at ih ⊢
      rw [ih]
      tauto

/-- Members are themselves upgraded. -/
theorem UpgradesInside.refl : UpgradesInside members members :=
  List.forall₂_same.mpr fun member _ => ⟨rfl, .same member.2⟩

/-- An array is upgraded item by item. -/
theorem Upgrades.of_array {items : List Json} (upgrades : Upgrades (.array items) value') :
    ∃ items', value' = .array items' ∧ List.Forall₂ Upgrades items items' := by
  cases upgrades with
  | same => exact ⟨items, rfl, List.forall₂_same.mpr fun item _ => .same item⟩
  | array each => exact ⟨_, rfl, each⟩

/-- An object is upgraded inside its members, and then pairs of its own are replaced. -/
theorem Upgrades.of_object (upgrades : Upgrades (.object members) value') :
    ∃ sides inner, value' = .object (upgradeSides sides inner) ∧ UpgradesInside members inner := by
  cases upgrades with
  | same => exact ⟨[], members, rfl, .refl⟩
  | object sides names each => exact ⟨sides, _, rfl, upgradesInside_iff.mpr ⟨names, each⟩⟩

/-- A value with nothing inside stays as it is. -/
theorem Upgrades.eq_of_isFlat (upgrades : Upgrades value value') (flat : value.IsFlat) :
    value' = value := by
  cases upgrades with
  | same => rfl
  | array each => exact flat.elim
  | object sides names each => exact flat.elim

/-- A value with nothing inside was so before. -/
theorem Upgrades.eq_of_isFlat' (upgrades : Upgrades value value') (flat : value'.IsFlat) :
    value = value' := by
  cases upgrades with
  | same => rfl
  | array each => exact flat.elim
  | object sides names each => exact flat.elim

/-- An array of values with nothing inside stays as it is. -/
theorem Upgrades.eq_of_flatItems {items : List Json} (upgrades : Upgrades (.array items) value')
    (flat : ∀ item ∈ items, item.IsFlat) : value' = .array items := by
  obtain ⟨items', rfl, each⟩ := upgrades.of_array
  congr 1
  induction each with
  | nil => rfl
  | cons here each ih =>
    rw [here.eq_of_isFlat (flat _ List.mem_cons_self),
      ih (fun item member => flat item (List.mem_cons_of_mem _ member)) (.array each)]

/-- Texts stay as they are. -/
theorem Upgrades.text?_eq (upgrades : Upgrades value value') : value.text? = value'.text? := by
  cases upgrades <;> rfl

/-- What is found under a name is found upgraded. -/
theorem UpgradesInside.lookup (upgrades : UpgradesInside members inner)
    (found : members.lookup key = some value) :
    ∃ value', inner.lookup key = some value' ∧ Upgrades value value' := by
  induction upgrades with
  | nil => cases found
  | @cons member member' rest rest' here _ ih =>
    obtain ⟨name, held⟩ := member
    obtain ⟨name', held'⟩ := member'
    obtain ⟨rfl, here⟩ := here
    rw [List.lookup_cons] at found ⊢
    -- The pair stands under the same name on both sides.
    by_cases same : key = name
    · simp only [same, beq_self_eq_true, Option.some.injEq] at found ⊢
      subst found
      exact ⟨held', rfl, here⟩
    · simp only [beq_false_of_ne same] at found ⊢
      exact ih found

/-- Under a name nothing is found that was not there before. -/
theorem UpgradesInside.lookup' (upgrades : UpgradesInside members inner)
    (found : inner.lookup key = some value') :
    ∃ value, members.lookup key = some value ∧ Upgrades value value' := by
  induction upgrades with
  | nil => cases found
  | @cons member member' rest rest' here _ ih =>
    obtain ⟨name, held⟩ := member
    obtain ⟨name', held'⟩ := member'
    obtain ⟨rfl, here⟩ := here
    rw [List.lookup_cons] at found ⊢
    -- The pair stands under the same name on both sides.
    by_cases same : key = name
    · simp only [same, beq_self_eq_true, Option.some.injEq] at found ⊢
      subst found
      exact ⟨held, rfl, here⟩
    · simp only [beq_false_of_ne same] at found ⊢
      exact ih found

/-- Flags stay as they are. -/
theorem UpgradesInside.isTrue_eq (upgrades : UpgradesInside members inner) :
    Reading.isTrue members key = Reading.isTrue inner key := by
  -- A flag has nothing inside, so an upgrade leaves it as it is.
  rw [Bool.eq_iff_iff, Reading.isTrue_iff, Reading.isTrue_iff]
  constructor
  · intro found
    obtain ⟨value', found', here⟩ := upgrades.lookup found
    rw [found', here.eq_of_isFlat trivial]
  · intro found
    obtain ⟨value, found', here⟩ := upgrades.lookup' found
    rw [found', here.eq_of_isFlat' trivial]

end

end Json

namespace Side

variable {side other : Side} {members : List (String × Json)} {key : String} {value : Json}

/-- The keywords of two sides are different. -/
theorem key_ne_exclusiveKey : other.key ≠ side.exclusiveKey := by
  cases side <;> cases other <;> decide

theorem exclusiveKey_ne (apart : other ≠ side) : other.exclusiveKey ≠ side.exclusiveKey := by
  cases side <;> cases other <;> first | decide | exact absurd rfl apart

/-- Other members than those of the pair are found as before. -/
theorem lookup_replace (notKey : key ≠ side.key) (notFlag : key ≠ side.exclusiveKey) :
    (side.replace members).lookup key = members.lookup key := by
  induction members with
  | nil => rfl
  | cons member rest ih =>
    obtain ⟨name, held⟩ := member
    rw [replace]
    split_ifs with isKey isFlag
    · -- The number moves to a name that is not asked for, and a flag that goes was under one as
      -- well.
      rw [List.lookup_cons, List.lookup_cons, ih, isKey, beq_false_of_ne notKey,
        beq_false_of_ne notFlag]
    · rw [List.lookup_cons, ih, isFlag.1, beq_false_of_ne notFlag]
    · rw [List.lookup_cons, List.lookup_cons, ih]

/-- Under the exclusive keyword stands the number of the pair, or no flag at all. -/
theorem of_lookup_replace (found : (side.replace members).lookup side.exclusiveKey = some value) :
    members.lookup side.key = some value ∨ value.bool? = none := by
  induction members with
  | nil => cases found
  | cons member rest ih =>
    obtain ⟨name, held⟩ := member
    rw [replace] at found
    rw [List.lookup_cons]
    -- The number moves to the exclusive keyword, flags under it go, and the rest is left alone.
    split_ifs at found with isKey isFlag
    · rw [List.lookup_cons, beq_self_eq_true] at found
      rw [isKey, beq_self_eq_true]
      exact .inl found
    · rw [isFlag.1, beq_false_of_ne key_ne_exclusiveKey]
      exact ih found
    · rw [beq_false_of_ne (Ne.symm isKey)]
      rw [List.lookup_cons] at found
      by_cases same : side.exclusiveKey = name
      · simp only [same, beq_self_eq_true, Option.some.injEq] at found
        subst found
        exact .inr (Option.not_isSome_iff_eq_none.mp fun flag => isFlag ⟨same.symm, flag⟩)
      · simp only [beq_false_of_ne same] at found
        exact ih found

/-- Both parts of a pair are values with nothing inside. -/
theorem isFlat_of_isPaired (paired : side.isPaired members = true)
    (part : key = side.key ∨ key = side.exclusiveKey) :
    ∃ held, members.lookup key = some held ∧ held.IsFlat := by
  obtain ⟨number, flag⟩ := Bool.and_eq_true_iff.mp paired
  rcases part with rfl | rfl
  · obtain ⟨quantity, number⟩ := Option.isSome_iff_exists.mp number
    obtain ⟨held, found, number⟩ := Option.bind_eq_some_iff.mp number
    exact ⟨held, found, Json.isFlat_of_ofJson? number⟩
  · exact ⟨_, Reading.isTrue_iff.mp flag, trivial⟩

/-- Other members than those of the pair are found as before. -/
theorem lookup_upgrade (notKey : key ≠ side.key) (notFlag : key ≠ side.exclusiveKey) :
    (side.upgrade members).lookup key = members.lookup key := by
  unfold upgrade
  split
  · exact lookup_replace notKey notFlag
  · rfl

/-- What is not found as before has nothing inside. -/
theorem lookup_upgrade_or (side : Side) (members : List (String × Json)) (key : String) :
    (side.upgrade members).lookup key = members.lookup key ∨
      ∃ held, members.lookup key = some held ∧ held.IsFlat := by
  -- Only a pair is replaced, and both of its members have nothing inside.
  by_cases paired : side.isPaired members = true
  · by_cases part : key = side.key ∨ key = side.exclusiveKey
    · exact .inr (isFlat_of_isPaired paired part)
    · rw [not_or] at part
      exact .inl (lookup_upgrade part.1 part.2)
  · rw [upgrade, if_neg paired]
    exact .inl rfl

/-- A pair that was replaced has no flag any more. -/
theorem isTrue_replace (paired : side.isPaired members = true) :
    Reading.isTrue (side.replace members) side.exclusiveKey = false := by
  rw [Bool.eq_false_iff, Ne, Reading.isTrue_iff]
  intro found
  rcases of_lookup_replace found with number | noFlag
  · have paired := (Bool.and_eq_true_iff.mp paired).1
    rw [number] at paired
    cases paired
  · cases noFlag

/-- The flag of another side stays as it is. -/
theorem isTrue_upgrade (apart : other ≠ side) :
    Reading.isTrue (side.upgrade members) other.exclusiveKey =
      Reading.isTrue members other.exclusiveKey := by
  rw [Reading.isTrue, Reading.isTrue,
    lookup_upgrade (Ne.symm key_ne_exclusiveKey) (exclusiveKey_ne apart)]

end Side

section

variable {sides : List Side} {members : List (String × Json)} {key : String}

/-- What is not found as before has nothing inside. -/
theorem lookup_upgradeSides_or (sides : List Side) (members : List (String × Json)) (key : String) :
    (upgradeSides sides members).lookup key = members.lookup key ∨
      ∃ held, members.lookup key = some held ∧ held.IsFlat := by
  induction sides generalizing members with
  | nil => exact .inl rfl
  | cons side rest ih =>
    -- What the first side leaves as it is the others are asked about; what it replaces was flat.
    rcases side.lookup_upgrade_or members key with same | flat
    · have later := ih (side.upgrade members)
      rwa [same] at later
    · exact .inr flat

/-- Members of other names than bounds are found as before. -/
theorem lookup_upgradeSides (apart : ∀ side : Side, key ≠ side.key ∧ key ≠ side.exclusiveKey) :
    (upgradeSides sides members).lookup key = members.lookup key := by
  induction sides generalizing members with
  | nil => rfl
  | cons side rest ih => exact ih.trans (side.lookup_upgrade (apart side).1 (apart side).2)

/-- A flag that is not set is not set later. -/
theorem isTrue_upgradeSides {side : Side} (unset : Reading.isTrue members side.exclusiveKey = false) :
    Reading.isTrue (upgradeSides sides members) side.exclusiveKey = false := by
  induction sides generalizing members with
  | nil => exact unset
  | cons other rest ih =>
    rw [upgradeSides, List.foldl_cons]
    refine ih ?_
    -- A side takes its own flag away if there is a pair, and leaves those of other sides alone.
    by_cases same : side = other
    · subst same
      have unpaired : side.upgrade members = members := if_neg (by simp [Side.isPaired, unset])
      rwa [unpaired]
    · rwa [Side.isTrue_upgrade same]

/-- Members that keep their flags hold no pair that was replaced. -/
theorem upgradeSides_eq_self
    (spared : ∀ side : Side, Reading.isTrue members side.exclusiveKey = true →
      Reading.isTrue (upgradeSides sides members) side.exclusiveKey = true) :
    upgradeSides sides members = members := by
  induction sides with
  | nil => rfl
  | cons side rest ih =>
    by_cases paired : side.isPaired members = true
    · -- A replaced pair has lost its flag for good, against the assumption.
      have set := spared side (Bool.and_eq_true_iff.mp paired).2
      have first : side.upgrade members = side.replace members := if_pos paired
      rw [upgradeSides, List.foldl_cons, first] at set
      have unset : Reading.isTrue (upgradeSides rest _) side.exclusiveKey = false :=
        isTrue_upgradeSides (side.isTrue_replace paired)
      exact absurd set (by simpa [upgradeSides] using unset)
    · have first : side.upgrade members = members := if_neg paired
      rw [upgradeSides, List.foldl_cons, first] at spared ⊢
      exact ih spared

end

/-- A text among the members stays as it is, unless it stands under the name of a bound. -/
theorem Json.Upgrades.textAt_eq {value value' : Json} {key : String}
    (upgrades : value.Upgrades value')
    (apart : ∀ side : Side, key ≠ side.key ∧ key ≠ side.exclusiveKey) :
    (value.member? key).bind Json.text? = (value'.member? key).bind Json.text? := by
  cases value with
  | object members =>
    obtain ⟨sides, inner, rfl, each⟩ := upgrades.of_object
    -- Pairs are replaced under the names of bounds only.
    rw [Json.member?, Json.member?, lookup_upgradeSides apart]
    -- What is found on one side is found on the other, upgraded.
    cases found : members.lookup key with
    | none =>
      cases found' : inner.lookup key with
      | none => rfl
      | some held' =>
        obtain ⟨held, there, -⟩ := each.lookup' found'
        cases found.symm.trans there
    | some held =>
      obtain ⟨held', found', here⟩ := each.lookup found
      rw [found', Option.bind_some, Option.bind_some, here.text?_eq]
  | array items =>
    obtain ⟨items', rfl, -⟩ := upgrades.of_array
    rfl
  | _ => rw [upgrades.eq_of_isFlat trivial]

namespace Documents

/-- The references among members are those of each member. -/
theorem memberReferences_cons {key : String} {value : Json} {rest : List (String × Json)} :
    memberReferences ((key, value) :: rest) =
      (if key = "$ref" then value.text?.toList else []) ++ references value ++
        memberReferences rest := by
  rw [memberReferences.eq_def]
  dsimp only
  congr 2
  -- A text under `$ref` is one reference, and no text has references inside.
  split
  · rfl
  · rename_i other
    split_ifs with direct
    · cases value with
      | string text => exact absurd rfl (other text direct)
      | _ => rfl
    · rfl

/-- References stay where a pair is replaced. -/
theorem memberReferences_upgradeSides {sides : List Side} {members : List (String × Json)} :
    memberReferences (upgradeSides sides members) = memberReferences members := by
  have replaced (side : Side) (members : List (String × Json)) :
      memberReferences (side.replace members) = memberReferences members := by
    have indirect : side.key ≠ "$ref" ∧ side.exclusiveKey ≠ "$ref" := by cases side <;> decide
    induction members with
    | nil => rfl
    | cons member rest ih =>
      obtain ⟨key, value⟩ := member
      rw [Side.replace]
      -- The number has no references inside, and it moves to a name that is none either.
      split_ifs with isKey isFlag
      · rw [memberReferences_cons, memberReferences_cons, ih, isKey, if_neg indirect.1,
          if_neg indirect.2]
      · -- There is no reference inside a flag.
        have none : references value = [] := by
          cases value with
          | bool held => rfl
          | _ => exact absurd isFlag.2 (by simp [Json.bool?])
        rw [memberReferences_cons, ih, isFlag.1, if_neg indirect.2, none]
        rfl
      · rw [memberReferences_cons, memberReferences_cons, ih]
  induction sides generalizing members with
  | nil => rfl
  | cons side rest ih =>
    rw [upgradeSides, List.foldl_cons]
    refine ih.trans ?_
    -- Sides without a pair change nothing, and neither does any other for references.
    unfold Side.upgrade
    split
    · exact replaced side members
    · rfl

mutual

/-- An upgraded value holds the same references. -/
theorem references_eq : (value : Json) → ∀ {value' : Json}, value.Upgrades value' →
    references value = references value'
  | .array items, _, upgrades => by
    -- The items hold the same references one by one.
    obtain ⟨items', rfl, each⟩ := upgrades.of_array
    rw [references, references, itemReferences_eq items each]
  | .object members, _, upgrades => by
    -- Pairs of bounds hold no references, and all other members hold the same ones.
    obtain ⟨sides, inner, rfl, each⟩ := upgrades.of_object
    rw [references, references, memberReferences_upgradeSides, memberReferences_eq members each]
  | .null, _, upgrades | .bool _, _, upgrades | .integer _, _, upgrades | .float _, _, upgrades
  | .string _, _, upgrades => by rw [upgrades.eq_of_isFlat trivial]

theorem itemReferences_eq : (items : List Json) → ∀ {items' : List Json},
    List.Forall₂ Json.Upgrades items items' → itemReferences items = itemReferences items'
  | [], _, .nil => rfl
  | item :: rest, _, .cons here others => by
    rw [itemReferences, itemReferences, references_eq item here, itemReferences_eq rest others]

theorem memberReferences_eq : (members : List (String × Json)) → ∀ {inner : List (String × Json)},
    Json.UpgradesInside members inner → memberReferences members = memberReferences inner
  | [], _, .nil => rfl
  | (key, value) :: rest, (key', value') :: _, .cons here others => by
    obtain ⟨same, here⟩ := here
    rw [memberReferences_cons, memberReferences_cons, show key = key' from same, here.text?_eq,
      references_eq value here, memberReferences_eq rest others]

end

/-- Documents whose contents are upgraded, under the same names. -/
structure Upgrades (documents documents' : Documents) : Prop where
  aliases : documents.aliases = documents'.aliases
  contents : Json.UpgradesInside documents.contents.entries documents'.contents.entries

namespace Upgrades

variable {documents documents' : Documents} {place : Place} {value : Json}

/-- The same documents are known. -/
theorem canonical?_eq (upgrades : documents.Upgrades documents') :
    documents.canonical? = documents'.canonical? := by
  funext uri
  -- The same URIs have a content, which is upgraded where it stands.
  have contains : documents.contents.contains uri = documents'.contents.contains uri := by
    rw [Bool.eq_iff_iff, Keyed.contains, Keyed.contains, Option.isSome_iff_exists,
      Option.isSome_iff_exists]
    constructor
    · rintro ⟨value, found⟩
      obtain ⟨value', found', -⟩ := upgrades.contents.lookup found
      exact ⟨value', found'⟩
    · rintro ⟨value', found'⟩
      obtain ⟨value, found, -⟩ := upgrades.contents.lookup' found'
      exact ⟨value, found⟩
  rw [canonical?, canonical?, contains, upgrades.aliases]

/-- References lead to the same places. -/
theorem resolve?_eq (upgrades : documents.Upgrades documents') :
    documents.resolve? = documents'.resolve? := by
  funext base reference
  unfold resolve?
  rw [upgrades.canonical?_eq]

/-- The same places are to be followed. -/
theorem targets_eq (upgrades : documents.Upgrades documents') :
    documents.targets = documents'.targets := by
  unfold targets
  rw [upgrades.resolve?_eq]
  have contents : List.Forall₂ _ _ _ := upgrades.contents
  generalize documents.contents.entries = entries at contents ⊢
  -- Documents are listed in the same order, each with the same references inside.
  generalize documents'.contents.entries = entries' at contents ⊢
  induction contents with
  | nil => rfl
  | @cons entry entry' rest rest' here _ ih =>
    obtain ⟨uri, content⟩ := entry
    obtain ⟨uri', content'⟩ := entry'
    obtain ⟨rfl, here⟩ := here
    rw [List.flatMap_cons, List.flatMap_cons, ih]
    dsimp only
    rw [references_eq content here]

/-- A document and its upgraded form join under the same URI. -/
theorem add (upgrades : documents.Upgrades documents') (uri : String) {content content' : Json}
    (here : content.Upgrades content') :
    (documents.add uri content).1 = (documents'.add uri content').1 ∧
      (documents.add uri content).2.Upgrades (documents'.add uri content').2 := by
  -- The URI of a document is read from a member that is no bound.
  have own : ownUri uri content = ownUri uri content' := by
    have named : (content.member? "$id").bind Json.text? = (content'.member? "$id").bind Json.text? :=
      here.textAt_eq (fun side => by cases side <;> decide)
    rw [ownUri, ownUri, named]
  refine ⟨own, ?_, ?_⟩
  · simp only [Documents.add, own, upgrades.aliases]
  · simp only [Documents.add, own]
    -- Where the URI is known the content is replaced, and otherwise it joins at the end, on both
    -- sides.
    have joined (key : String) (entries entries' : List (String × Json))
        (each : Json.UpgradesInside entries entries') :
        Json.UpgradesInside (Keyed.insertInto key content entries)
          (Keyed.insertInto key content' entries') := by
      unfold Json.UpgradesInside at each ⊢
      induction each with
      | nil => exact .cons ⟨rfl, here⟩ .nil
      | @cons entry entry' rest rest' first others ih =>
        obtain ⟨uri, held⟩ := entry
        obtain ⟨uri', held'⟩ := entry'
        obtain ⟨rfl, first⟩ := first
        rw [Keyed.insertInto, Keyed.insertInto]
        split_ifs
        · exact .cons ⟨rfl, here⟩ others
        · exact .cons ⟨rfl, first⟩ ih
    exact joined _ _ _ upgrades.contents

end Upgrades

end Documents

namespace Json

variable {value value' part : Json}

/-- One step inside a value leads to an upgraded part, or to a part with nothing inside. -/
theorem Upgrades.step {token : String} (upgrades : Upgrades value value')
    (found : Pointer.step value token = some part) :
    (∃ part', Pointer.step value' token = some part' ∧ Upgrades part part') ∨ part.IsFlat := by
  cases value with
  | object members =>
    obtain ⟨sides, inner, rfl, each⟩ := upgrades.of_object
    obtain ⟨part', found', here⟩ := each.lookup found
    -- What is found under another name than before is the number of a pair, which has nothing inside.
    rcases lookup_upgradeSides_or sides inner token with
      same | ⟨held, found'', flat⟩
    · exact .inl ⟨part', same.trans found', here⟩
    · cases found''.symm.trans found'
      exact .inr (here.eq_of_isFlat' flat ▸ flat)
  | array items =>
    obtain ⟨items', rfl, each⟩ := upgrades.of_array
    obtain ⟨index, named, found⟩ := Option.bind_eq_some_iff.mp found
    -- Arrays keep their length, so the same index leads to the upgraded item.
    obtain ⟨inside, rfl⟩ := List.getElem?_eq_some_iff.mp found
    obtain ⟨length, each⟩ := List.forall₂_iff_get.mp each
    refine .inl ⟨items'.get ⟨index, length ▸ inside⟩,
      Option.bind_eq_some_iff.mpr ⟨index, named, ?_⟩, ?_⟩
    · exact List.getElem?_eq_getElem _
    · exact each index inside (length ▸ inside)
  | _ => cases found

/-- A pointer selects an upgraded part, or a part with nothing inside. -/
theorem Upgrades.select {pointer : String} (upgrades : Upgrades value value')
    (found : Pointer.select value pointer = some part) :
    (∃ part', Pointer.select value' pointer = some part' ∧ Upgrades part part') ∨ part.IsFlat := by
  have steps (tokens : List String) (value value' : Json) (upgrades : Upgrades value value')
      (found : tokens.foldlM Pointer.step value = some part) :
      (∃ part', tokens.foldlM Pointer.step value' = some part' ∧ Upgrades part part') ∨
        part.IsFlat := by
    induction tokens generalizing value value' with
    | nil =>
      cases found
      exact .inl ⟨value', rfl, upgrades⟩
    | cons token rest ih =>
      obtain ⟨next, here, found⟩ := Option.bind_eq_some_iff.mp found
      rcases upgrades.step here with ⟨next', here', upgrades⟩ | flat
      · -- A step that leads to an upgraded part goes on from there.
        rw [List.foldlM_cons, here']
        exact ih next next' upgrades found
      · -- No further step leads inside such a part.
        cases rest with
        | nil =>
          cases found
          exact .inr flat
        | cons token rest =>
          obtain ⟨after, here, -⟩ := Option.bind_eq_some_iff.mp found
          cases next with
          | array | object => exact flat.elim
          | _ => cases here
  unfold Pointer.select at found ⊢
  -- An empty pointer selects the value itself, and one without a slash nothing.
  split at found
  · cases found
    exact .inl ⟨value', rfl, upgrades⟩
  · exact steps _ value value' upgrades found
  · cases found

end Json

/-- A document whose content is upgraded. -/
structure SourceDocument.Upgrades (source source' : SourceDocument) : Prop where
  uri : source.uri = source'.uri
  directories : source.directories = source'.directories
  content : source.content.Upgrades source'.content

/-- The document with the pairs of all chosen objects in the second dialect. -/
def SourceDocument.upgrade (source : SourceDocument) (chosen : List String → Bool) : SourceDocument :=
  { source with content := source.content.upgrade chosen [] }

/-- Whichever objects are chosen, the document is upgraded. -/
theorem SourceDocument.upgrades_upgrade (source : SourceDocument) (chosen : List String → Bool) :
    source.Upgrades (source.upgrade chosen) := ⟨rfl, rfl, Json.upgrades_upgrade chosen [] _⟩

/-- Upgraded documents are registered under the same URIs. -/
theorem upgrades_registerDocuments {sources sources' : List SourceDocument}
    (upgrades : List.Forall₂ SourceDocument.Upgrades sources sources') :
    (registerDocuments sources).1 = (registerDocuments sources').1 ∧
      (registerDocuments sources).2.Upgrades (registerDocuments sources').2 := by
  -- The induction is on the documents, whatever was registered before.
  have from' (inputs : List (String × List String)) (documents documents' : Documents)
      (held : documents.Upgrades documents') :
      let round := fun (found : List (String × List String) × Documents) (source : SourceDocument) =>
        (found.1 ++ [((found.2.add source.uri source.content).1, source.directories)],
          (found.2.add source.uri source.content).2)
      (sources.foldl round (inputs, documents)).1 = (sources'.foldl round (inputs, documents')).1 ∧
        (sources.foldl round (inputs, documents)).2.Upgrades
          (sources'.foldl round (inputs, documents')).2 := by
    intro round
    induction upgrades generalizing inputs documents documents' with
    | nil => exact ⟨rfl, held⟩
    | @cons source source' rest rest' here _ ih =>
      -- Both forms join under the same URI, whatever is registered already.
      obtain ⟨own, held⟩ := held.add source.uri here.content
      have joined : inputs ++ [((documents.add source.uri source.content).1, source.directories)] =
          inputs ++ [((documents'.add source'.uri source'.content).1, source'.directories)] := by
        rw [← here.uri, ← here.directories, own]
      rw [List.foldl_cons, List.foldl_cons]
      simp only [round, joined]
      exact ih _ _ _ (here.uri ▸ held)
  exact from' [] {} {} ⟨rfl, .nil⟩

end SchemaClasses
