import SchemaClasses.Proofs.Catalogue.Projection
import SchemaClasses.Proofs.Resolution.Estates

/-! The catalogue is closed: every value in it comes from a record whose analysis is complete, every class name
in it leads to one of its classes, and every class brings along the constants and library types it needs. -/

namespace SchemaClasses

namespace Model

variable {model : Model} {id : RecordId} {type : ValueType}

/-- The class names in the type of a record are paths of classes that are there. -/
theorem Typed.exists_ref (typed : model.Typed id type) {path : String} (member : path ∈ type.paths) :
    ∃ ref, model.HasClass ref ∧ path = model.classPath ref := by
  -- Only the class of a record has a name; an array passes on those of its items.
  induction typed with
  | generated shaped there => exact ⟨_, there, List.mem_singleton.mp member⟩
  | array shaped held typed ih => exact ih member
  | _ => exact absurd member List.not_mem_nil

/-- A type is left open for a record without one only. -/
theorem Typed.any_iff (typed : model.Typed id type) :
    -- A record without a type has its own shape, and every other type comes from another one.
    type = .any ↔ (model.ledger.record id).shape = some .untyped := by
  cases typed with
  | untyped shaped => simp [shaped]
  | generated shaped there => simp [shaped]
  | custom shaped => simp [shaped]
  | library shaped => simp [shaped]
  | array shaped held typed => simp [shaped]
  | bareArray shaped bare => simp [shaped]
  | string shaped => simp [shaped]
  | boolean shaped => simp [shaped]
  | int32 shaped => simp [shaped]
  | int64 shaped => simp [shaped]
  | decimal shaped => simp [shaped]

/-- A record whose analysis is complete: objects and enums were settled on a class, and its type is the
one that its shape and its items tell. -/
structure Analysed (model : Model) (id : RecordId) : Prop where
  present : id.index < model.ledger.size
  settled : ∃ shape, (model.ledger.record id).shape = some shape ∧ shape.IsValue
  typed : model.Typed id (model.typeOf id)
  untyped : model.typeOf id = .any ↔ (model.ledger.record id).shape = some .untyped

/-- A model whose catalogue is closed. -/
structure Closed (model : Model) : Prop where
  /-- Classes are made for records that are there. -/
  made : ∀ owner : DeclarationId, owner.index < model.declarations.size → ∀ kind id,
    model.Makes owner kind id → id.index < model.ledger.size
  /-- The values of a class come from records that were analysed. -/
  values : ∀ owner : DeclarationId, owner.index < model.declarations.size → ∀ id,
    model.Makes owner .concrete id → ∀ value, model.Values id value → model.Analysed value
  /-- Every type of a class, at any depth, is that of a record that was analysed. -/
  types : ∀ language, ∀ top ∈ model.entries language, ∀ entry, top.Contains entry →
    ∀ type ∈ entry.body.types, ∃ value, model.Analysed value ∧ type = model.typeOf value
  /-- Every class name in a class, at any depth, leads to a class of the catalogue. -/
  paths : ∀ language, ∀ top ∈ model.entries language, ∀ entry, top.Contains entry →
    ∀ path ∈ entry.paths, ∃ target, ClassEntry.Lists (model.entries language) path target
  /-- The class that a record is settled on is there. -/
  refs : ∀ id ref, (model.ledger.record id).typeRef = some (.generated ref) ∨
    (model.ledger.record id).shape = some (.reference (.generated ref)) → model.HasClass ref
  /-- Declarations are related to classes that are there, and nest classes in earlier ones. -/
  links : ∀ id, model.Links (model.declaration id)

end Model

namespace Modelling

open Model

variable {context : Context} {first last : Model} {homes : DeclarationId → Set RecordId}
variable {left : List DeclarationId} {owner : DeclarationId} {kind : ClassKind} {made : RecordId}

/-- A class is made for a record of the estate that its declaration has. -/
theorem Estates.mem_home (estates : Estates context first homes left last)
    (inside : owner.index < last.declarations.size) (makes : last.Makes owner kind made) :
    made ∈ homes owner := by
  have estate := estates.estate owner (estates.declarations ▸ inside)
  cases makes with
  | declared =>
    rw [(estates.grows owner).record]
    exact estate.rooted
  | nested member => exact estate.housed _ member

/-- A concrete class is whole. -/
theorem Estates.whole (estates : Estates context first homes left last)
    (inside : owner.index < last.declarations.size) (makes : last.Makes owner .concrete made) :
    last.Whole owner made := by
  -- Only concrete classes are filled, so the kind is carried along through the cases.
  have estate := estates.estate owner (estates.declarations ▸ inside)
  generalize concrete : ClassKind.concrete = kind at makes
  cases makes with
  | declared =>
    rw [(estates.grows owner).record]
    -- The class of the declaration itself is filled with its estate.
    exact estate.whole ((estates.grows owner).kind.symm.trans concrete.symm)
  | nested member =>
    obtain ⟨index, there⟩ := Array.mem_iff_getElem?.mp member
    -- A nested class was filled once its turn had come, and none is left to be.
    exact estate.filled index _ (Nat.zero_le _) there concrete.symm

/-- What a class holds was analysed. -/
theorem Estates.analysed (estates : Estates context first homes left last)
    (inside : owner.index < last.declarations.size) (makes : last.Makes owner .concrete made)
    {value : RecordId} (values : last.Values made value) : last.Analysed value := by
  have settled := values.settled (estates.whole inside makes)
  have typed := settled.typed estates.sane estates.stacked estates.ledger.size_le
  cases settled with
  | intro present shaped isValue used items =>
    exact ⟨present, ⟨_, shaped, isValue⟩, typed, typed.any_iff⟩

/-- Every class in an entry of the catalogue shows one that some declaration makes. -/
theorem exists_shows_of_mem_entries {model : Model} {language : Language} {top entry : ClassEntry}
    (member : top ∈ model.entries language) (contains : top.Contains entry) :
    ∃ owner : DeclarationId, owner.index < model.declarations.size ∧ ∃ kind made,
      model.Shows language owner entry kind made := by
  obtain ⟨owner, inside, rfl⟩ := mem_entries.mp member
  exact ⟨owner, inside, exists_shows contains⟩

/-- A model in which every class has its estate is closed. -/
theorem Estates.closed (estates : Estates context first homes left last) : last.Closed := by
  have refs (id : RecordId) (ref : ClassRef)
      (settled : (last.ledger.record id).typeRef = some (.generated ref)) : last.HasClass ref :=
    -- A reference is only noted for a class that suits the record, and that one is there.
    (estates.sane.suits id ref settled).hasClass
  have types (language : Language) (top : ClassEntry) (member : top ∈ last.entries language)
      (entry : ClassEntry) (contains : top.Contains entry) (type : ValueType)
      (held : type ∈ entry.body.types) : ∃ value, last.Analysed value ∧ type = last.typeOf value := by
    obtain ⟨owner, inside, kind, made, shows⟩ := exists_shows_of_mem_entries member contains
    rw [shows.body] at held
    -- Only concrete classes have values.
    obtain ⟨rfl, value, values, same⟩ := exists_of_mem_types held
    exact ⟨value, estates.analysed inside shows.makes values, same⟩
  refine { made := fun owner inside kind id makes => ?_
           values := fun owner inside id makes value values => estates.analysed inside makes values
           types := types
           paths := fun language top member entry contains path named => ?_
           refs := fun id ref settled => ?_
           links := estates.sane.links }
  · exact (estates.estate owner (estates.declarations ▸ inside)).present
      (estates.mem_home inside makes)
  · obtain ⟨owner, inside, kind, made, shows⟩ := exists_shows_of_mem_entries member contains
    have links := estates.sane.links owner
    -- Every name is the path of a class that is there, so it leads to that class.
    obtain ⟨ref, there, rfl⟩ : ∃ ref, last.HasClass ref ∧ path = last.classPath ref := by
      rcases List.mem_append.mp named with related | typed
      · -- Base, derived classes and interfaces are links of the model, which lead to classes that
        -- are there.
        rcases List.mem_append.mp related with related | implements
        · rcases List.mem_append.mp related with base | derived
          · obtain ⟨base, held, same⟩ := shows.base path (Option.mem_toList.mp base)
            exact ⟨_, links.base base held, same⟩
          · obtain ⟨other, held, same⟩ := shows.derived path derived
            exact ⟨_, links.derived other held, same⟩
        · obtain ⟨ref, same, held | ⟨nested, held, implements⟩⟩ := shows.interfaces path implements
          · exact ⟨ref, links.interfaces ref held, same⟩
          · obtain ⟨index, found⟩ := Array.mem_iff_getElem?.mp held
            exact ⟨ref, links.implements index nested found ref implements, same⟩
      · -- A name in a type is that of the class of some analysed value.
        obtain ⟨type, held, inType⟩ := List.mem_flatMap.mp typed
        obtain ⟨value, analysed, rfl⟩ := types language top member entry contains type held
        exact analysed.typed.exists_ref inType
    exact exists_lists estates.sane.links there
  · rcases settled with typed | shaped
    · exact refs id ref typed
    · exact refs id ref (estates.sane.shaped id ref shaped)

/-- Every class of a run has its estate at the end. -/
theorem estates_build {roots : List RootSchema} :
    Ends (build context roots) {}
      (fun _ last => ∃ first homes, Estates context first homes [] last) (fun _ => True) := by
  rw [← tells_comparingBuild, ends_map, comparingBuild, ends_bind]
  refine declared_roots.imp (fun _ first declared => ?_) fun _ _ => trivial
  -- The run is the one that tells its comparisons; what it tells is not needed here.
  refine (ends_comparingResolve_estates declared).imp (fun told last resolved => ?_)
    fun _ _ => trivial
  obtain ⟨done, middle, rest, turns, homes, estates⟩ := resolved
  exact ⟨first, homes, estates⟩

/-- The catalogue of every run is closed: what its classes hold at any depth comes from records whose
analysis is complete, with types that are open only for records without a type and for the items of
arrays without any; and every class name in it is the path of one of its classes. -/
theorem closed_build {roots : List RootSchema} :
    Ends (build context roots) {} (fun _ last => last.Closed) (fun _ => True) :=
  estates_build.imp (fun _ _ ⟨_, _, estates⟩ => estates.closed) fun _ _ => trivial

end Modelling

/-- The model that a run with default settings builds for some documents. -/
def built? (sources : List SourceDocument) : Option Model :=
  match (readRoots sources).run {} with
  | .ok roots tree =>
    match (Modelling.build { tree } roots).run {} with
    | .ok () last => some last
    | .error .. => none
  | .error .. => none

/-- A model that is built is the end of a run that succeeds. -/
theorem exists_run_of_built? {sources : List SourceDocument} {last : Model}
    (built : built? sources = some last) :
    ∃ roots tree, (readRoots sources).run {} = .ok roots tree ∧
      (Modelling.build { tree } roots).run {} = .ok () last := by
  -- A document is read, and then the model is built: both have to succeed.
  unfold built? at built
  split at built
  · rename_i roots tree read
    split at built
    · rename_i model ran
      cases built
      exact ⟨roots, tree, read, ran⟩
    · cases built
  · cases built

/-- A class with a constant for some texts and an array of objects, and one that extends it. -/
def stockedSources : List SourceDocument :=
  [{ uri := "shelf"
     content := .object [("type", .string "object"), ("properties", .object [
       ("code", .object [("type", .string "string"), ("enum", .array [.string "a-1", .string "b-2"])]),
       ("books", .object [("type", .string "array"), ("items", .object [("type", .string "object"),
         ("properties", .object [("title", .object [("type", .string "string")])])])])])] },
   { uri := "stack"
     content := .object [("allOf", .array [.object [("$ref", .string "shelf")]])] }]

/-- In their catalogue the items of the array are of a class that is found under its path, and their type is
that of a record that was analysed. -/
theorem closed_build_stockedSources :
    ∃ roots tree last, (readRoots stockedSources).run {} = .ok roots tree ∧
      (Modelling.build { tree } roots).run {} = .ok () last ∧
        ∃ top ∈ last.entries .java, .array (.generated "Shelf.Book") ∈ top.body.types ∧
          (∃ value, last.Analysed value ∧ .array (.generated "Shelf.Book") = last.typeOf value) ∧
            ∃ target, ClassEntry.Lists (last.entries .java) "Shelf.Book" target := by
  have holds : (built? stockedSources).any fun last => (last.entries .java).any fun top =>
      top.body.types.any fun type => decide (type = .array (.generated "Shelf.Book")) := by
    decide +kernel
  -- The computation only tells that there is such a class, so it is taken apart step by step.
  obtain ⟨last, built, holds⟩ := (Option.any_eq_true _ _).mp holds
  obtain ⟨roots, tree, read, ran⟩ := exists_run_of_built? built
  obtain ⟨top, member, holds⟩ := List.any_eq_true.mp holds
  obtain ⟨type, typed, same⟩ := List.any_eq_true.mp holds
  obtain rfl := of_decide_eq_true same
  -- The class itself is one of those that it contains.
  have closed := Modelling.closed_build.of_ok ran
  refine ⟨roots, tree, last, read, ran, top, member, typed, ?_, ?_⟩
  · exact closed.types .java top member top .self _ typed
  · refine closed.paths .java top member top .self _ ?_
    simp only [ClassEntry.paths, List.mem_append, List.mem_flatMap]
    exact .inr ⟨_, typed, by simp [ValueType.paths]⟩

/-! Every class brings along what it needs: the constants that its checks and patterns name, no others, and
the library types that it takes. -/

/-- Whether a check compares with a constant is told by its operand. -/
theorem Check.constant?_eq_some {check : Check} {name : String} :
    check.constant? = some name ↔ check.operand = some (.constant name) := by
  unfold constant?
  split
  · rename_i operand
    simp [operand]
  · rename_i other
    simp only [reduceCtorEq, false_iff]
    exact fun operand => other name operand

/-- The library types of a class are those that it uses. -/
theorem Declaration.mem_sortedLibraryTypes {declaration : Declaration} {type : LibraryType} :
    type ∈ declaration.sortedLibraryTypes ↔ type ∈ declaration.libraryTypes := by
  have listed : type ∈ LibraryType.all := by cases type <;> decide
  simp [sortedLibraryTypes, listed]

namespace ClassEntry

/-- Whether a class has a constant of a name and kind; a name that all classes in it share. -/
def Holds (entry : ClassEntry) (name : String) (kind : ConstantKind) : Prop :=
  ∃ constant ∈ entry.constants, constant.name = name ∧ constant.kind = kind

/-- A class that needs nothing that it does not bring along, in itself and in the classes nested in
it. -/
structure SelfContained (top : ClassEntry) : Prop where
  /-- No name stands for two constants. -/
  names : (top.constants.map Constant.name).Nodup
  /-- The constant that a check names is there, and of the kind that the check needs. -/
  checks : ∀ entry, top.Contains entry → ∀ check ∈ entry.body.performed, ∀ name,
    check.constant? = some name →
      ∃ kind, check.kind.constantKind? = some kind ∧ top.Holds name kind
  /-- A check that needs a constant names one. -/
  needed : ∀ entry, top.Contains entry → ∀ check ∈ entry.body.performed, ∀ kind,
    check.kind.constantKind? = some kind → ∃ name, check.constant? = some name
  /-- The constant of a pattern is a regular expression. -/
  patterns : ∀ entry, top.Contains entry → ∀ pattern ∈ entry.body.patternProperties, ∀ name,
    pattern.constant = some name → top.Holds name .regex
  /-- There are no other constants. -/
  mentioned : ∀ constant ∈ top.constants, ∃ entry, top.Contains entry ∧
    entry.body.Mentions constant.name
  /-- The library types of all types are there. -/
  types : ∀ entry, top.Contains entry → ∀ type ∈ entry.body.types,
    type.libraryTypes ⊆ top.libraryTypes
  /-- A class that a map backs needs maps. -/
  maps : ∀ entry, top.Contains entry → entry.body.mapBacked = true → .map ∈ top.libraryTypes
  /-- A check of a pattern needs regular expressions. -/
  regexes : ∀ entry, top.Contains entry → ∀ check ∈ entry.body.performed,
    check.kind.constantKind? = some .regex → .regex ∈ top.libraryTypes

end ClassEntry

namespace Model

variable {model : Model} {language : Language} {owner : DeclarationId}

/-- The constants of an entry are those of the declaration that are mentioned in it. -/
theorem constants_entryOf : (model.entryOf language (model.declaration owner)).constants =
    (model.declaration owner).constants.entries.filter fun constant =>
      constant.name ∈ (model.entryOf language (model.declaration owner)).mentioned := by
  -- What is mentioned in an entry does not depend on its constants.
  simp only [entryOf, ClassEntry.mentioned]
  rfl

/-- A constant of the declaration that is mentioned in an entry is one of the entry. -/
theorem holds_entryOf {name : String} {kind : ConstantKind} {entry : ClassEntry}
    (holds : (model.declaration owner).constants.Holds name kind)
    (contains : (model.entryOf language (model.declaration owner)).Contains entry)
    (mentions : entry.body.Mentions name) :
    (model.entryOf language (model.declaration owner)).Holds name kind := by
  obtain ⟨constant, member, rfl, same⟩ := holds
  refine ⟨constant, ?_, rfl, same⟩
  rw [constants_entryOf, List.mem_filter, decide_eq_true_eq, ClassEntry.mem_mentioned]
  exact ⟨member, entry, contains, mentions⟩

/-- The pattern properties of a class are those of the record that it was made for. -/
theorem exists_of_mem_patternProperties {kind : ClassKind} {made : RecordId} {pattern : PatternEntry}
    (member : pattern ∈ (model.bodyOf language kind made).patternProperties) :
    ∃ entry ∈ (model.ledger.record made).patternProperties, pattern.constant = entry.constant := by
  cases kind with
  | concrete =>
    obtain ⟨entry, held, rfl⟩ := List.mem_map.mp member
    exact ⟨entry, held, rfl⟩
  | enumeration => exact absurd member List.not_mem_nil
  | interface => exact absurd member List.not_mem_nil

/-- A class is backed by a map if the record that it was made for is. -/
theorem mapBacked_bodyOf {kind : ClassKind} {made : RecordId} :
    (model.bodyOf language kind made).mapBacked = (model.ledger.record made).mapBacked := by
  cases kind <;> rfl

end Model

namespace Modelling

open Model

variable {context : Context} {first last : Model} {homes : DeclarationId → Set RecordId}
variable {left : List DeclarationId} {owner : DeclarationId} {language : Language}

/-- The entry of a declaration that has its estate needs nothing else. -/
theorem Estates.selfContained (estates : Estates context first homes left last)
    (inside : owner.index < last.declarations.size) :
    (last.entryOf language (last.declaration owner)).SelfContained := by
  have estate := estates.estate owner (estates.declarations ▸ inside)
  -- Whatever a class performs was planned for a record of the estate, so the declaration has what
  -- the check needs.
  have supplied {entry : ClassEntry} {check : Check}
      (contains : (last.entryOf language (last.declaration owner)).Contains entry)
      (member : check ∈ entry.body.performed) :
      check.IsSupplied (last.declaration owner).constants (last.declaration owner).libraryTypes := by
    obtain ⟨kind, made, shows⟩ := exists_shows contains
    rw [shows.body] at member
    obtain ⟨-, inner, held, planned⟩ := exists_of_mem_performed member
    have belongs := estates.mem_home inside shows.makes
    have acts : inner ∈ homes owner := by
      -- The record acts for the class itself or for one of its values, and both belong to the
      -- estate.
      rcases held with rfl | values
      · exact belongs
      · exact values.mem belongs estate.closed
    exact (estate.stocked inner acts).checks check planned
  constructor
  case names =>
    rw [constants_entryOf]
    -- Constants are numbered, so no two share a name, and filtering does not change that.
    exact estate.numbered.nodup_names.sublist (List.filter_sublist.map _)
  case checks =>
    intro entry contains check member name named
    obtain ⟨kind, same, holds⟩ :=
      (supplied contains member).named name (Check.constant?_eq_some.mp named)
    exact ⟨kind, same, holds_entryOf holds contains (.inl ⟨check, member, named⟩)⟩
  case needed =>
    intro entry contains check member kind needs
    -- A check that needs a constant was supplied with one when it was planned.
    obtain ⟨name, named⟩ := (supplied contains member).needed kind needs
    exact ⟨name, Check.constant?_eq_some.mpr named⟩
  case patterns =>
    intro entry contains pattern member name named
    refine holds_entryOf ?_ contains (.inr ⟨pattern, member, named⟩)
    obtain ⟨kind, made, shows⟩ := exists_shows contains
    rw [shows.body] at member
    obtain ⟨source, held, same⟩ := exists_of_mem_patternProperties member
    have belongs := estates.mem_home inside shows.makes
    -- A pattern has the constant that was noted with its property.
    exact (estate.stocked made belongs).entries source held name (same.symm.trans named)
  case mentioned =>
    intro constant member
    rw [constants_entryOf, List.mem_filter, decide_eq_true_eq] at member
    -- What no class mentions is not written, so all that is written is mentioned.
    exact ClassEntry.mem_mentioned.mp member.2
  case types =>
    intro entry contains type member library used
    obtain ⟨kind, made, shows⟩ := exists_shows contains
    rw [shows.body] at member
    obtain ⟨rfl, value, values, rfl⟩ := exists_of_mem_types member
    have settled := values.settled (estates.whole inside shows.makes)
    -- The library types that a type uses were noted when its value was settled.
    exact Declaration.mem_sortedLibraryTypes.mpr
      (settled.libraryTypes estates.stacked estates.ledger.size_le used)
  case maps =>
    intro entry contains backed
    obtain ⟨kind, made, shows⟩ := exists_shows contains
    rw [shows.body, mapBacked_bodyOf] at backed
    have belongs := estates.mem_home inside shows.makes
    exact Declaration.mem_sortedLibraryTypes.mpr ((estate.stocked made belongs).mapBacked backed)
  case regexes =>
    intro entry contains check member needs
    exact Declaration.mem_sortedLibraryTypes.mpr ((supplied contains member).regex needs)

/-- Every class of the catalogue of a run, with the classes nested in it, brings along what it needs:
exactly the constants that its checks and patterns name, each once and of the kind that they need, and
the library types that its types, maps and patterns take. -/
theorem selfContained_build {roots : List RootSchema} :
    Ends (build context roots) {}
      (fun _ last => ∀ language, ∀ top ∈ last.entries language, top.SelfContained)
      (fun _ => True) := by
  refine estates_build.imp (fun _ last built language top member => ?_) fun _ _ => trivial
  obtain ⟨first, homes, estates⟩ := built
  obtain ⟨owner, inside, rfl⟩ := mem_entries.mp member
  exact estates.selfContained inside

end Modelling

/-- The class with texts to compare with holds the constant that its check names. -/
theorem selfContained_build_stockedSources :
    ∃ roots tree last, (readRoots stockedSources).run {} = .ok roots tree ∧
      (Modelling.build { tree } roots).run {} = .ok () last ∧
        ∃ top ∈ last.entries .java, ∃ check ∈ top.body.performed, ∃ name,
          check.constant? = some name ∧ top.Holds name .stringArray := by
  have checked : (built? stockedSources).any fun last => (last.entries .java).any fun top =>
      top.body.performed.any fun check =>
        decide (check.kind.constantKind? = some .stringArray) := by
    decide +kernel
  obtain ⟨last, built, checked⟩ := (Option.any_eq_true _ _).mp checked
  obtain ⟨roots, tree, read, ran⟩ := exists_run_of_built? built
  obtain ⟨top, member, checked⟩ := List.any_eq_true.mp checked
  obtain ⟨check, performed, needs⟩ := List.any_eq_true.mp checked
  have needs := of_decide_eq_true needs
  -- The check names a constant, and that is one of the kind that it needs.
  have contained := Modelling.selfContained_build.of_ok ran .java top member
  obtain ⟨name, named⟩ := contained.needed top .self check performed _ needs
  obtain ⟨kind, same, holds⟩ := contained.checks top .self check performed name named
  rw [needs] at same
  cases same
  exact ⟨roots, tree, last, read, ran, top, member, check, performed, name, named, holds⟩

end SchemaClasses
