import SchemaClasses.Catalogue
import SchemaClasses.Proofs.Resolution.Sharing

/-! What the catalogue shows: what it holds at any depth, and where that comes from in a model. -/

namespace SchemaClasses

/-! What a class of the catalogue holds at any depth: the classes nested in it, the elements of its
properties, and the types and checks of these. -/

/-- The class names in a type. -/
def ValueType.paths : ValueType → List String
  | .generated path => [path]
  | .array items => items.paths
  | _ => []

/-- The library types that a type takes. -/
def ValueType.libraryTypes : ValueType → List LibraryType
  | .library type => [type]
  | .decimal => [.decimal]
  | .array items => .list :: items.libraryTypes
  | _ => []

namespace Element

/-- The type of an element. -/
def type : Element → ValueType
  | mk type _ _ _ => type

/-- The checks of an element itself. -/
def checks : Element → List Check
  | mk _ checks _ _ => checks

/-- An element with its items, their items and so on. -/
def all : Element → List Element
  | mk type checks nullable none => [mk type checks nullable none]
  | mk type checks nullable (some items) => mk type checks nullable (some items) :: items.all

/-- The constants of an element are mentioned by the checks of all that it holds. -/
theorem mem_constants {element : Element} {name : String} :
    name ∈ element.constants ↔
      ∃ inner ∈ element.all, ∃ check ∈ inner.checks, check.constant? = some name := by
  -- An element is a chain of items, so the induction follows their depth.
  induction element using Element.constants.induct with
  | case1 type checks nullable => simp [constants, all, Element.checks]
  | case2 type checks nullable items ih => simp [constants, all, Element.checks, ih]

end Element

namespace ClassBody

/-- The elements in the values of a class, at any depth of items. -/
def elements (body : ClassBody) : List Element :=
  (body.properties.flatMap fun property => (property.items.map Element.all).getD [])
    ++ (body.patternProperties.flatMap fun entry => entry.value.all)
    ++ (body.additional.map Element.all).getD []

/-- The types of all values of a class. -/
def types (body : ClassBody) : List ValueType :=
  body.properties.map (·.type) ++ body.elements.map Element.type

/-- All checks that a class performs, on itself and on its values. -/
def performed (body : ClassBody) : List Check :=
  body.checks ++ (body.properties.flatMap (·.checks)) ++ body.elements.flatMap Element.checks

/-- Whether a class mentions a constant: one of its checks compares with it, or it holds the pattern of
some properties. -/
def Mentions (body : ClassBody) (name : String) : Prop :=
  (∃ check ∈ body.performed, check.constant? = some name) ∨
    ∃ entry ∈ body.patternProperties, entry.constant = some name

/-- The constants of a class are those that it mentions. -/
theorem mem_constants {body : ClassBody} {name : String} :
    name ∈ body.constants ↔ body.Mentions name := by
  -- The items of a property mention what the elements in them do.
  have items (items : Option Element) : name ∈ (items.map Element.constants).getD [] ↔
      ∃ element ∈ (items.map Element.all).getD [], ∃ check ∈ element.checks,
        check.constant? = some name := by
    cases items with
    | none => simp
    | some element => simpa using Element.mem_constants
  simp only [constants, Mentions, performed, elements, Property.constants, PatternEntry.constants,
    List.mem_append, List.mem_filterMap, List.mem_flatMap, items, Element.mem_constants,
    Option.mem_toList]
  -- Both sides list the same places, only grouped differently: the class, its properties, its
  -- patterns and its additional values.
  constructor
  · rintro (((own | ⟨property, member, own | inner⟩) | ⟨entry, member, own | inner⟩) | inner)
    · obtain ⟨check, held, named⟩ := own
      exact .inl ⟨check, .inl (.inl held), named⟩
    · obtain ⟨check, held, named⟩ := own
      exact .inl ⟨check, .inl (.inr ⟨property, member, held⟩), named⟩
    · obtain ⟨element, inside, check, held, named⟩ := inner
      exact .inl ⟨check, .inr ⟨element, .inl (.inl ⟨property, member, inside⟩), held⟩, named⟩
    · exact .inr ⟨entry, member, own⟩
    · obtain ⟨element, inside, check, held, named⟩ := inner
      exact .inl ⟨check, .inr ⟨element, .inl (.inr ⟨entry, member, inside⟩), held⟩, named⟩
    · obtain ⟨element, inside, check, held, named⟩ := inner
      exact .inl ⟨check, .inr ⟨element, .inr inside, held⟩, named⟩
  · rintro (⟨check, (own | ⟨property, member, held⟩) | ⟨element, inside, held⟩, named⟩ |
      ⟨entry, member, named⟩)
    · exact .inl (.inl (.inl ⟨check, own, named⟩))
    · exact .inl (.inl (.inr ⟨property, member, .inl ⟨check, held, named⟩⟩))
    · rcases inside with (⟨property, member, inside⟩ | ⟨entry, member, inside⟩) | inside
      · exact .inl (.inl (.inr ⟨property, member, .inr ⟨element, inside, check, held, named⟩⟩))
      · exact .inl (.inr ⟨entry, member, .inr ⟨element, inside, check, held, named⟩⟩)
      · exact .inr ⟨element, inside, check, held, named⟩
    · exact .inl (.inr ⟨entry, member, .inl named⟩)

end ClassBody

/-- The class names that a class gives away: its relations to other classes, and those in its types. -/
def ClassEntry.paths (entry : ClassEntry) : List String :=
  entry.base.toList ++ entry.derived ++ entry.interfaces
    ++ entry.body.types.flatMap ValueType.paths

/-- Whether a class is another one or lies in it at any depth. -/
inductive ClassEntry.Contains : ClassEntry → ClassEntry → Prop where
  | self {entry : ClassEntry} : Contains entry entry
  | nested {entry outer inner : ClassEntry} (member : outer ∈ entry.nested)
      (contains : Contains outer inner) : Contains entry inner

/-- Whether some classes, among them those nested in others, have one of a dotted path: the qualified
name of a class, or the path of the class around it and then its name. -/
inductive ClassEntry.Lists (entries : List ClassEntry) : String → ClassEntry → Prop where
  | top {entry : ClassEntry} (member : entry ∈ entries) :
      Lists entries (Declaration.qualify entry.package entry.name) entry
  | nested {path : String} {outer inner : ClassEntry} (lists : Lists entries path outer)
      (member : inner ∈ outer.nested) : Lists entries (path ++ "." ++ inner.name) inner

/-- The constants mentioned in a class are those that the classes in it mention. -/
theorem ClassEntry.mem_mentioned {entry : ClassEntry} {name : String} :
    name ∈ entry.mentioned ↔ ∃ inner, entry.Contains inner ∧ inner.body.Mentions name := by
  -- Classes and lists of classes are walked in turn, so the induction is on both at once.
  induction entry using ClassEntry.mentioned.induct
    (motive_2 := fun entries => name ∈ mentionedInAll entries ↔
      ∃ entry ∈ entries, ∃ inner, entry.Contains inner ∧ inner.body.Mentions name) with
  | case1 _ _ _ _ body _ _ _ nested _ _ _ _ ih =>
    rw [ClassEntry.mentioned, List.mem_append, ClassBody.mem_constants, ih]
    constructor
    · rintro (own | ⟨outer, member, inner, contains, mentions⟩)
      · exact ⟨_, .self, own⟩
      · exact ⟨inner, .nested member contains, mentions⟩
    · -- What lies in a class is the class itself or lies in one nested in it.
      rintro ⟨inner, contains, mentions⟩
      cases contains with
      | self => exact .inl mentions
      | nested member contains => exact .inr ⟨_, member, inner, contains, mentions⟩
  | case2 => simp [mentionedInAll]
  | case3 entry rest ih ih' => simp [mentionedInAll, ih, ih']

/-! What the catalogue shows of a model: which records the values of its classes come from, the types of
these, and the paths under which its classes are found. -/

/-- A last piece is joined behind all others. -/
theorem joinText_append {separator last : String} {pieces : List String} (some : pieces ≠ []) :
    joinText separator (pieces ++ [last]) = joinText separator pieces ++ separator ++ last := by
  unfold joinText
  induction pieces with
  | nil => exact absurd rfl some
  | cons first rest ih =>
    -- A first piece with more behind it is followed by the separator, whatever comes last.
    cases rest with
    | nil => simp [String.intercalate_cons_cons]
    | cons second rest =>
      simp only [List.cons_append, String.intercalate_cons_cons, String.append_assoc] at ih ⊢
      rw [ih (List.cons_ne_nil _ _)]

/-- Whether every nested class lies in an earlier one, or in the declaration itself. -/
def Declaration.Ascends (declaration : Declaration) : Prop :=
  ∀ (index : Nat) (nested : NestedClass), declaration.nested[index]? = some nested →
    ∀ parent, nested.parent = some parent → parent < index

namespace Model

variable {model : Model} {language : Language} {owner : DeclarationId} {kind : ClassKind}
variable {id made other : RecordId} {bound : Nat}

/-! Types: those of arrays come from their items, however deep these lie. -/

/-- The type of a value of some shape; of an array, with the type of its items. -/
def typeOfShape (model : Model) (items : ValueType) : Shape → ValueType
  | .reference (.generated ref) => .generated (model.classPath ref)
  | .reference (.custom custom) => .custom custom.className
  | .library type => .library type
  | .array => .array items
  | .string => .string
  | .boolean => .boolean
  | .int32 => .int32
  | .int64 => .int64
  | .decimal => .decimal
  | _ => .any

/-- The type of a record is that of its shape. -/
theorem typeWithin_succ {steps : Nat} :
    model.typeWithin (steps + 1) id =
      model.typeOfShape (((model.ledger.record id).items.map (model.typeWithin steps)).getD .any)
        ((model.ledger.record id).shape.getD .untyped) := by
  rw [typeWithin.eq_def]
  dsimp only
  cases (model.ledger.record id).shape.getD .untyped with
  | reference type => cases type <;> rfl
  | _ => rfl

/-- How many records may be met on the way down from an array: items before the bound lie behind the
array, and any other array leads there at once. -/
def depth (bound : Nat) (id : RecordId) : Nat :=
  if id.index < bound then bound - id.index else bound + 1

theorem depth_pos : 0 < depth bound id := by
  unfold depth
  split
  · omega
  · exact Nat.succ_pos _

/-- Items lie less deep than their array. -/
theorem Stacked.depth_items (stacked : model.Stacked bound)
    (held : (model.ledger.record id).items = some other) : depth bound other < depth bound id := by
  -- The items lie before the bound, and behind the array if this lies there too.
  obtain ⟨inside, behind⟩ := stacked id other held
  unfold depth
  rw [if_pos inside]
  split
  · rename_i below
    have later := behind below
    omega
  · -- An array that lies behind the bound is deeper than all records before it.
    omega

/-- A type does not depend on the number of steps, as long as there are enough for the items. -/
theorem Stacked.typeWithin_eq (stacked : model.Stacked bound) {steps more : Nat}
    (enough : depth bound id ≤ steps) (enough' : depth bound id ≤ more) :
    model.typeWithin steps id = model.typeWithin more id := by
  have positive : 0 < depth bound id := depth_pos
  -- One step is used for each array, so the induction is on the steps.
  induction steps generalizing id more with
  | zero => omega
  | succ steps ih =>
    obtain ⟨more, rfl⟩ : ∃ less, more = less + 1 := ⟨more - 1, by omega⟩
    rw [typeWithin_succ, typeWithin_succ]
    cases held : (model.ledger.record id).items with
    | none => rfl
    | some items =>
      have less := stacked.depth_items held
      have same : model.typeWithin steps items = model.typeWithin more items :=
        ih (by omega) (by omega) depth_pos
      rw [Option.map_some, Option.map_some, same]

/-- The type of a record by its shape and the type of its items. -/
theorem Stacked.typeOf_eq (stacked : model.Stacked bound) (low : bound ≤ model.ledger.size) :
    model.typeOf id =
      model.typeOfShape (((model.ledger.record id).items.map model.typeOf).getD .any)
        ((model.ledger.record id).shape.getD .untyped) := by
  -- Unfolding the definition takes one step off, and the items need no more steps than are left.
  have unfolded : model.typeOf id = model.typeOfShape
      (((model.ledger.record id).items.map (model.typeWithin model.ledger.size)).getD .any)
      ((model.ledger.record id).shape.getD .untyped) := typeWithin_succ
  rw [unfolded]
  cases held : (model.ledger.record id).items with
  | none => rfl
  | some items =>
    -- Items lie before the bound, where there are fewer records than steps.
    have enough : depth bound items ≤ model.ledger.size := by
      unfold depth
      rw [if_pos (stacked id items held).1]
      omega
    rw [Option.map_some, Option.map_some, stacked.typeWithin_eq enough (Nat.le_succ_of_le enough)]
    rfl

/-- The type of a record as its shape and its items tell it. A type is left open only for a record
without one, and for the items of an array that has none. -/
inductive Typed (model : Model) : RecordId → ValueType → Prop where
  | generated {id : RecordId} {ref : ClassRef}
      (shaped : (model.ledger.record id).shape = some (.reference (.generated ref)))
      (there : model.HasClass ref) : Typed model id (.generated (model.classPath ref))
  | custom {id : RecordId} {custom : CustomClass}
      (shaped : (model.ledger.record id).shape = some (.reference (.custom custom))) :
      Typed model id (.custom custom.className)
  | library {id : RecordId} {type : LibraryType}
      (shaped : (model.ledger.record id).shape = some (.library type)) :
      Typed model id (.library type)
  | array {id items : RecordId} {type : ValueType}
      (shaped : (model.ledger.record id).shape = some .array)
      (held : (model.ledger.record id).items = some items) (typed : Typed model items type) :
      Typed model id (.array type)
  | bareArray {id : RecordId} (shaped : (model.ledger.record id).shape = some .array)
      (bare : (model.ledger.record id).items = none) : Typed model id (.array .any)
  | string {id : RecordId} (shaped : (model.ledger.record id).shape = some .string) :
      Typed model id .string
  | boolean {id : RecordId} (shaped : (model.ledger.record id).shape = some .boolean) :
      Typed model id .boolean
  | int32 {id : RecordId} (shaped : (model.ledger.record id).shape = some .int32) :
      Typed model id .int32
  | int64 {id : RecordId} (shaped : (model.ledger.record id).shape = some .int64) :
      Typed model id .int64
  | decimal {id : RecordId} (shaped : (model.ledger.record id).shape = some .decimal) :
      Typed model id .decimal
  | untyped {id : RecordId} (shaped : (model.ledger.record id).shape = some .untyped) :
      Typed model id .any

variable {context : Context} {ref : ClassRef}

/-- A class that suits a record is there. -/
theorem Suits.hasClass (suits : model.Suits context id ref) : model.HasClass ref := by
  cases suits with
  | declared refers stands => exact inside_of_declarationAlong? stands
  | origin there made same => exact (Array.getElem?_eq_some_iff.mp there).1
  | target there refers same => exact (Array.getElem?_eq_some_iff.mp there).1

/-- A record whose analysis is complete has the type that its shape and its items tell. -/
theorem Settled.typed (settled : model.Settled owner id) (sane : model.Sane context)
    (stacked : model.Stacked bound) (low : bound ≤ model.ledger.size) :
    model.Typed id (model.typeOf id) := by
  induction settled with
  -- The shape was settled, so the type is read off it case by case.
  | @intro id shape present shaped isValue used items ih =>
    rw [stacked.typeOf_eq low, shaped, Option.getD_some]
    cases shape with
    -- Objects and promoted enumerations are classes, and no value is left with their shape.
    | object => exact absurd rfl isValue.1
    | identifierEnum => exact absurd rfl isValue.2
    | reference type =>
      cases type with
      -- The shape of a generated class was taken over from a record that it suits.
      | generated ref => exact .generated shaped (sane.suits id ref (sane.shaped id ref shaped)).hasClass
      | custom custom => exact .custom shaped
    | array =>
      -- The items of an array are complete as well, if it has any.
      cases held : (model.ledger.record id).items with
      | none => exact .bareArray shaped held
      | some items => exact .array shaped held (ih rfl items held)
    | library type => exact .library shaped
    | string => exact .string shaped
    | boolean => exact .boolean shaped
    | int32 => exact .int32 shaped
    | int64 => exact .int64 shaped
    | decimal => exact .decimal shaped
    | untyped => exact .untyped shaped

/-- The library types in the type of a record whose analysis is complete are in use. -/
theorem Settled.libraryTypes (settled : model.Settled owner id)
    (stacked : model.Stacked bound) (low : bound ≤ model.ledger.size) :
    (model.typeOf id).libraryTypes ⊆ (model.declaration owner).libraryTypes := by
  induction settled with
  | @intro id shape present shaped isValue used items ih =>
    rw [stacked.typeOf_eq low, shaped, Option.getD_some]
    cases shape with
    | reference type => cases type <;> exact List.nil_subset _
    | array =>
      -- Lists for the array itself, and whatever its items need.
      refine List.cons_subset.mpr ⟨used List.mem_cons_self, ?_⟩
      cases held : (model.ledger.record id).items with
      | none => exact List.nil_subset _
      | some items => exact ih rfl items held
    | library type => exact used
    | decimal => exact used
    -- All other types come without a library.
    | _ => exact List.nil_subset _

/-! Values: what a class holds comes from the records of its properties. -/

/-- The records whose values a class made for a record holds: those of its properties, and the items of
arrays among them. -/
inductive Values (model : Model) (made : RecordId) : RecordId → Prop where
  | member {id : RecordId} (held : (model.ledger.record made).IsMember id) : Values model made id
  | items {id items : RecordId} (values : Values model made id)
      (array : (model.ledger.record id).shape = some .array)
      (held : (model.ledger.record id).items = some items) : Values model made items

/-- The values of a class that is whole have been analysed completely. -/
theorem Values.settled (values : model.Values made id) (whole : model.Whole owner made) :
    model.Settled owner id := by
  induction values with
  | member held => exact whole.settled _ held
  | items values array held ih =>
    cases ih with
    | intro present shaped isValue used items =>
      rw [shaped] at array
      exact items (Option.some_inj.mp array) _ held

/-- The values of a class lie with its record in what holds all that is inside it. -/
theorem Values.mem {home : Set RecordId} (values : model.Values made id) (belongs : made ∈ home)
    (closed : ∀ record ∈ home, ∀ child ∈ (model.ledger.record record).children, child ∈ home) :
    id ∈ home := by
  induction values with
  | member held => exact closed _ belongs _ held.mem_children
  | items values array held ih =>
    exact closed _ ih _ (Record.LeadsTo.mem_children (.inr held))

/-- Only an array has items. -/
theorem itemsOf?_eq_some {record : Record} {items : RecordId} (held : itemsOf? record = some items) :
    record.shape = some .array ∧ record.items = some items := by
  unfold itemsOf? at held
  split at held
  · rename_i array
    exact ⟨array, held⟩
  · cases held

/-- An element is made from a value of the class, with all elements in it. -/
theorem exists_of_mem_elementWithin {steps : Nat} {element : Element}
    (values : model.Values made id) (member : element ∈ (model.elementWithin steps id).all) :
    ∃ inner, model.Values made inner ∧ element.type = model.typeOf inner ∧
      element.checks = model.ownChecks inner := by
  induction steps generalizing id with
  -- Without a step left the element is the only one.
  | zero =>
    rw [elementWithin.eq_def] at member
    rw [List.mem_singleton.mp member]
    exact ⟨id, values, rfl, rfl⟩
  | succ steps ih =>
    rw [elementWithin.eq_def] at member
    dsimp only at member
    cases held : itemsOf? (model.ledger.record id) with
    | none =>
      rw [held] at member
      rw [List.mem_singleton.mp member]
      exact ⟨id, values, rfl, rfl⟩
    | some items =>
      rw [held] at member
      -- Either the element itself, or one in its items.
      rcases List.mem_cons.mp member with rfl | inner
      · exact ⟨id, values, rfl, rfl⟩
      · -- The items of an array that was looked into are values of the class as well.
        obtain ⟨array, held⟩ := itemsOf?_eq_some held
        exact ih (values.items array held) inner

/-- The elements of a class are made from its values. -/
theorem exists_of_mem_elements {element : Element}
    (member : element ∈ (model.bodyOf language kind made).elements) :
    ∃ inner, model.Values made inner ∧ element.type = model.typeOf inner ∧
      element.checks = model.ownChecks inner := by
  cases kind with
  | enumeration => exact absurd member List.not_mem_nil
  | interface => exact absurd member List.not_mem_nil
  | concrete =>
    simp only [bodyOf, ClassBody.elements, List.mem_append, List.flatMap_map, List.mem_flatMap] at member
    rcases member with (⟨property, held, inside⟩ | ⟨entry, held, inside⟩) | inside
    · -- The items of a property that is an array.
      simp only [propertyOf] at inside
      cases items : itemsOf? (model.ledger.record property) with
      | none =>
        rw [items] at inside
        exact absurd inside List.not_mem_nil
      | some items' =>
        rw [items] at inside
        obtain ⟨array, items⟩ := itemsOf?_eq_some items
        have values : model.Values made items' := .items (.member (.inl held)) array items
        exact exists_of_mem_elementWithin values inside
    · -- The value of properties with names of a pattern.
      have values : model.Values made entry.record :=
        .member (.inr (.inl (List.mem_map_of_mem held)))
      exact exists_of_mem_elementWithin values inside
    · -- The value of all other properties.
      split at inside
      · rename_i value additional
        have values : model.Values made value := .member (.inr (.inr additional))
        exact exists_of_mem_elementWithin values inside
      · exact absurd inside List.not_mem_nil

/-- The types of a class are those of its values. -/
theorem exists_of_mem_types {type : ValueType}
    (member : type ∈ (model.bodyOf language kind made).types) :
    kind = .concrete ∧ ∃ inner, model.Values made inner ∧ type = model.typeOf inner := by
  -- A class of another kind projects no property and no element.
  have concrete : kind = .concrete := by
    cases kind with
    | concrete => rfl
    | _ => exact absurd member List.not_mem_nil
  refine ⟨concrete, ?_⟩
  subst concrete
  rcases List.mem_append.mp member with property | element
  · simp only [bodyOf, List.map_map, List.mem_map] at property
    obtain ⟨id, held, rfl⟩ := property
    exact ⟨id, .member (.inl held), rfl⟩
  · obtain ⟨element, inside, rfl⟩ := List.mem_map.mp element
    obtain ⟨inner, values, same, -⟩ := exists_of_mem_elements inside
    exact ⟨inner, values, same⟩

/-- A record has no other checks of its own than those planned for it. -/
theorem mem_of_mem_ownChecks {check : Check} (member : check ∈ model.ownChecks id) :
    check ∈ (model.ledger.checks id).items := by
  unfold ownChecks at member
  split at member
  · exact absurd member List.not_mem_nil
  · exact member

/-- The checks that a class performs were planned for its record or for its values. -/
theorem exists_of_mem_performed {check : Check}
    (member : check ∈ (model.bodyOf language kind made).performed) :
    kind = .concrete ∧ ∃ inner, (inner = made ∨ model.Values made inner) ∧
      check ∈ (model.ledger.checks inner).items := by
  -- A class of another kind projects no check.
  have concrete : kind = .concrete := by
    cases kind with
    | concrete => rfl
    | _ => exact absurd member List.not_mem_nil
  refine ⟨concrete, ?_⟩
  subst concrete
  -- A class performs its own checks, those of its properties and those of its elements.
  rcases List.mem_append.mp member with direct | element
  · rcases List.mem_append.mp direct with own | property
    · exact ⟨made, .inl rfl, own⟩
    · simp only [bodyOf, List.flatMap_map, List.mem_flatMap] at property
      obtain ⟨id, held, member⟩ := property
      exact ⟨id, .inr (.member (.inl held)), mem_of_mem_ownChecks member⟩
  · obtain ⟨element, inside, member⟩ := List.mem_flatMap.mp element
    obtain ⟨inner, values, -, same⟩ := exists_of_mem_elements inside
    rw [same] at member
    exact ⟨inner, .inr values, mem_of_mem_ownChecks member⟩

/-! Classes: a catalogue entry holds the class of a declaration and those nested in it. -/

/-- Whether a class of some kind is made for a record: a declaration, or a class nested in it. -/
inductive Makes (model : Model) (owner : DeclarationId) : ClassKind → RecordId → Prop where
  | declared : Makes model owner (model.declaration owner).kind (model.declaration owner).record
  | nested {nested : NestedClass} (member : nested ∈ (model.declaration owner).nested) :
      Makes model owner nested.kind nested.record

/-- A nested class among those of a scope, with what is nested in it. -/
theorem mem_nestedWithin {steps : Nat} {scope : Option Nat} {entry : ClassEntry} :
    entry ∈ model.nestedWithin language (model.declaration owner) (steps + 1) scope ↔
      ∃ index nested, (model.declaration owner).nested[index]? = some nested ∧
        nested.parent = scope ∧
        { name := nested.name
          kind := nested.kind
          description := (model.ledger.record nested.record).description
          body := model.bodyOf language nested.kind nested.record
          interfaces := nested.interfaces.map model.classPath
          nested := model.nestedWithin language (model.declaration owner) steps (some index)
          isVariant := nested.isVariant } = entry := by
  rw [nestedWithin]
  simp only [List.mem_map, List.mem_filter, Prod.exists, List.mem_zipIdx_iff_getElem?,
    Array.getElem?_toList, beq_iff_eq]
  constructor
  · rintro ⟨nested, index, ⟨there, scope⟩, same⟩
    exact ⟨index, nested, there, scope, same⟩
  · rintro ⟨index, nested, there, scope, same⟩
    exact ⟨nested, index, ⟨there, scope⟩, same⟩

/-- What a catalogue entry shows of a class that is made for a record, whatever it is nested in. -/
structure Shows (model : Model) (language : Language) (owner : DeclarationId) (entry : ClassEntry)
    (kind : ClassKind) (made : RecordId) : Prop where
  makes : model.Makes owner kind made
  body : entry.body = model.bodyOf language kind made
  base : ∀ path, entry.base = some path →
    ∃ base, (model.declaration owner).base = some base ∧ path = model.classPath (.declaration base)
  derived : ∀ path ∈ entry.derived,
    ∃ derived ∈ (model.declaration owner).derived, path = model.classPath (.declaration derived)
  interfaces : ∀ path ∈ entry.interfaces,
    ∃ ref, path = model.classPath ref ∧ (ref ∈ (model.declaration owner).interfaces ∨
      ∃ nested ∈ (model.declaration owner).nested, ref ∈ nested.interfaces)

/-- Every class in a scope shows one that is made there. -/
theorem shows_of_mem_nestedWithin {steps : Nat} {scope : Option Nat} {entry outer : ClassEntry}
    (member : outer ∈ model.nestedWithin language (model.declaration owner) steps scope)
    (contains : outer.Contains entry) : ∃ kind made, model.Shows language owner entry kind made := by
  -- Each step leads one class deeper, so the induction is on the steps.
  induction steps generalizing scope outer with
  | zero => exact absurd member List.not_mem_nil
  | succ steps ih =>
    obtain ⟨index, nested, there, -, rfl⟩ := mem_nestedWithin.mp member
    have held : nested ∈ (model.declaration owner).nested := Array.mem_of_getElem? there
    cases contains with
    | self =>
      -- The entry itself shows the nested class that it was made from.
      refine ⟨nested.kind, nested.record, .nested held, rfl, nofun, nofun, fun path listed => ?_⟩
      obtain ⟨ref, implements, rfl⟩ := List.mem_map.mp listed
      exact ⟨ref, rfl, .inr ⟨nested, held, implements⟩⟩
    | nested member contains => exact ih member contains

/-- Every class in the entry of a declaration shows one that is made there. -/
theorem exists_shows {entry : ClassEntry}
    (contains : (model.entryOf language (model.declaration owner)).Contains entry) :
    ∃ kind made, model.Shows language owner entry kind made := by
  cases contains with
  | self =>
    -- The entry of the declaration shows the declaration itself, with its base, its derived classes
    -- and its interfaces.
    refine ⟨_, _, .declared, rfl, fun path held => ?_, fun path listed => ?_, fun path listed => ?_⟩
    · obtain ⟨base, extended, same⟩ := Option.map_eq_some_iff.mp held
      exact ⟨base, extended, same.symm⟩
    · obtain ⟨derived, held, rfl⟩ := List.mem_map.mp listed
      exact ⟨derived, held, rfl⟩
    · obtain ⟨ref, held, rfl⟩ := List.mem_map.mp listed
      exact ⟨ref, rfl, .inl held⟩
  | nested member contains => exact shows_of_mem_nestedWithin member contains

/-- Every entry of the catalogue is that of a declaration. -/
theorem mem_entries {entry : ClassEntry} :
    entry ∈ model.entries language ↔
      ∃ id : DeclarationId, id.index < model.declarations.size ∧
        model.entryOf language (model.declaration id) = entry := by
  simp only [entries, List.mem_map, Array.mem_toList_iff, Array.mem_iff_getElem]
  -- A declaration that is there and its position are the same thing.
  constructor
  · rintro ⟨_, ⟨index, inside, rfl⟩, rfl⟩
    exact ⟨⟨index⟩, inside, by simp [declaration, inside]⟩
  · rintro ⟨id, inside, rfl⟩
    exact ⟨_, ⟨id.index, inside, rfl⟩, by simp [declaration, inside]⟩

/-! Paths: every class that is there is found under its path, however deep it is nested. -/

variable {index : Nat} {nested : NestedClass}

/-- The names around a nested class do not depend on the number of steps, as long as there is one for
each class that it may lie in. -/
theorem enclosingNames_eq {declaration : Declaration} (ascends : declaration.Ascends)
    {steps more : Nat} (enough : index < steps) (enough' : index < more) :
    enclosingNames declaration steps (some index) = enclosingNames declaration more (some index) := by
  -- A class lies in earlier ones only, so each step leads to a smaller number.
  induction steps generalizing index more with
  | zero => omega
  | succ steps ih =>
    obtain ⟨more, rfl⟩ : ∃ less, more = less + 1 := ⟨more - 1, by omega⟩
    rw [enclosingNames, enclosingNames]
    cases there : declaration.nested[index]? with
    | none => rfl
    | some nested =>
      dsimp only
      cases outer : nested.parent with
      -- What lies directly in the declaration has its own name only, however many steps there are.
      | none => cases steps <;> cases more <;> rfl
      | some parent =>
        have earlier := ascends index nested there parent outer
        have fewer : parent < steps := by omega
        have fewer' : parent < more := by omega
        rw [ih fewer fewer']

/-- The path of a nested class is that of the class around it, followed by its name. -/
theorem classPath_nested (ascends : (model.declaration owner).Ascends)
    (there : (model.declaration owner).nested[index]? = some nested) :
    model.classPath (.nested owner index) =
      model.classPath (nested.parent.elim (.declaration owner) (.nested owner)) ++ "." ++
        nested.name := by
  have inside : index < (model.declaration owner).nested.size :=
    (Array.getElem?_eq_some_iff.mp there).1
  obtain ⟨steps, size⟩ : ∃ steps, (model.declaration owner).nested.size = steps + 1 :=
    ⟨(model.declaration owner).nested.size - 1, by omega⟩
  have names : enclosingNames (model.declaration owner) (steps + 1) (some index) =
      enclosingNames (model.declaration owner) steps nested.parent ++ [nested.name] := by
    rw [enclosingNames, there]
  -- The last name is split off, and the rest are the names around the class.
  rw [classPath, size, names, ← List.cons_append, joinText_append (List.cons_ne_nil _ _)]
  -- The steps differ by one here, which the number of the class around makes no difference to.
  cases outer : nested.parent with
  | none =>
    have outermost : enclosingNames (model.declaration owner) steps none = [] := by
      cases steps <;> rfl
    rw [outermost]
    simp [joinText, classPath]
  | some parent =>
    have earlier := ascends index nested there parent outer
    rw [enclosingNames_eq ascends (show parent < steps by omega) (show parent < steps + 1 by omega),
      Option.elim_some, classPath, size]

/-- A nested class is found under its path, with all classes nested in it. -/
theorem exists_lists_nested (inside : owner.index < model.declarations.size)
    (links : model.Links (model.declaration owner))
    (there : (model.declaration owner).nested[index]? = some nested) :
    ∃ entry steps, ClassEntry.Lists (model.entries language) (model.classPath (.nested owner index))
        entry ∧
      entry.nested = model.nestedWithin language (model.declaration owner) steps (some index) ∧
      (model.declaration owner).nested.size ≤ steps + index := by
  -- The class around it comes before, so the induction is on the number.
  induction index using Nat.strong_induction_on generalizing nested with
  | _ index ih =>
    have below : index < (model.declaration owner).nested.size :=
      (Array.getElem?_eq_some_iff.mp there).1
    rw [classPath_nested links.parent there]
    cases outer : nested.parent with
    | none =>
      -- It lies in the declaration itself.
      refine ⟨_, _, .nested (.top (mem_entries.mpr ⟨owner, inside, rfl⟩))
        (mem_nestedWithin.mpr ⟨index, nested, there, outer, rfl⟩), rfl, by omega⟩
    | some parent =>
      -- The class around has an entry under its path already, and this class is listed in it.
      have earlier := links.parent index nested there parent outer
      have before := Array.getElem?_eq_getElem (Nat.lt_trans earlier below)
      obtain ⟨entry, steps, lists, same, enough⟩ := ih parent earlier before
      obtain ⟨steps, rfl⟩ : ∃ less, steps = less + 1 := ⟨steps - 1, by omega⟩
      obtain ⟨inner, member, named, below⟩ : ∃ inner ∈ entry.nested, inner.name = nested.name ∧
          inner.nested = model.nestedWithin language (model.declaration owner) steps (some index) := by
        rw [same]
        exact ⟨_, mem_nestedWithin.mpr ⟨index, nested, there, outer, rfl⟩, rfl, rfl⟩
      rw [← named, Option.elim_some]
      exact ⟨inner, steps, .nested lists member, below, by omega⟩

/-- Every class that is there is found under its path. -/
theorem exists_lists (links : ∀ id, model.Links (model.declaration id)) (there : model.HasClass ref) :
    ∃ entry, ClassEntry.Lists (model.entries language) (model.classPath ref) entry := by
  cases ref with
  | declaration id => exact ⟨_, .top (mem_entries.mpr ⟨id, there, rfl⟩)⟩
  | nested owner index =>
    -- A declaration that nests a class is there itself.
    have inside : owner.index < model.declarations.size := by
      by_contra past
      have empty := declaration_of_size_le (Nat.le_of_not_lt past)
      rw [HasClass, empty] at there
      exact absurd there (Nat.not_lt_zero _)
    obtain ⟨entry, -, lists, -⟩ := exists_lists_nested inside (links owner)
      (Array.getElem?_eq_getElem there)
    exact ⟨entry, lists⟩

end Model

end SchemaClasses
