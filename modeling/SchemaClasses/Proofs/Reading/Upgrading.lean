import SchemaClasses.Proofs.Reading.Dialects
import SchemaClasses.Proofs.Reading.Links
import SchemaClasses.Proofs.Tandem

/-! Documents in the second dialect of exclusive bounds are read wherever those in the first one are,
into trees that say the same. -/

namespace SchemaClasses

/-- Whether two clauses say the same; only bounds may stand under different names. -/
structure Clause.Concurs (clause clause' : Clause) : Prop where
  keyword : clause.keyword = clause'.keyword
  location : (∀ side bound, clause.keyword ≠ .bound side bound) → clause.location = clause'.location

/-- Whether two schemas say the same, clause by clause and in their texts. -/
inductive SchemaBody.Concurs : SchemaBody → SchemaBody → Prop
  | boolean (value : Bool) : Concurs (.boolean value) (.boolean value)
  | object {source source' : Json} {clauses clauses' : List Clause}
      (texts : ∀ name ∈ ["title", "description"],
        (source.member? name).bind Json.text? = (source'.member? name).bind Json.text?)
      (each : List.Forall₂ Clause.Concurs clauses clauses') :
      Concurs (.object source clauses) (.object source' clauses')

/-- Whether two trees say the same: they have the same schemas at the same locations. -/
structure SchemaTree.Concurs (tree tree' : SchemaTree) : Prop where
  size : tree.schemas.size = tree'.schemas.size
  location : ∀ id, tree.location id = tree'.location id
  body : ∀ id, (tree.schema id).body.Concurs (tree'.schema id).body

theorem Clause.Concurs.refl (clause : Clause) : clause.Concurs clause := ⟨rfl, fun _ => rfl⟩

theorem Clause.Concurs.trans {first second third : Clause} (concurs : first.Concurs second)
    (concurs' : second.Concurs third) : first.Concurs third :=
  ⟨concurs.keyword.trans concurs'.keyword,
    fun unbound => (concurs.location unbound).trans (concurs'.location (concurs.keyword ▸ unbound))⟩

/-- Clauses concur with themselves. -/
theorem Clause.concur_refl (clauses : List Clause) : List.Forall₂ Clause.Concurs clauses clauses :=
  List.forall₂_same.mpr fun clause _ => .refl clause

theorem Clause.concur_trans {first second third : List Clause}
    (each : List.Forall₂ Clause.Concurs first second)
    (each' : List.Forall₂ Clause.Concurs second third) : List.Forall₂ Clause.Concurs first third := by
  induction each generalizing third with
  | nil => exact each'
  | cons here _ ih =>
    cases each' with
    | cons here' each' => exact .cons (here.trans here') (ih each')

namespace SchemaTree.Concurs

variable {tree tree' : SchemaTree} (concurs : tree.Concurs tree') {id : SchemaId} {location : String}

include concurs

theorem location_eq : tree.location = tree'.location := funext concurs.location

/-- The same schemas are found. -/
theorem find?_eq : tree.find? location = tree'.find? location := by
  have same (id : SchemaId) : tree.find? location = some id ↔ tree'.find? location = some id := by
    rw [SchemaTree.find?_eq_some, SchemaTree.find?_eq_some, concurs.size, concurs.location_eq]
  exact Option.ext fun id => same id

/-- The same schemas are numbered. -/
theorem ids_eq : tree.ids = tree'.ids := by rw [ids, ids, concurs.size]

/-- Schemas have the same keywords in the same order. -/
theorem keywords (id : SchemaId) :
    List.Forall₂ (fun clause clause' => clause.keyword = clause'.keyword) (tree.schema id).clauses
      (tree'.schema id).clauses := by
  have body := concurs.body id
  unfold Schema.clauses
  -- Only the bodies matter: either both are boolean or both list related clauses.
  generalize (tree.schema id).body = here at body ⊢
  generalize (tree'.schema id).body = there at body ⊢
  cases body with
  | boolean value => exact .nil
  | object texts each => exact each.imp fun _ _ same => same.keyword

/-- Schemas have the same texts. -/
theorem text?_eq {name : String} (listed : name ∈ ["title", "description"]) :
    (tree.schema id).text? name = (tree'.schema id).text? name := by
  have body := concurs.body id
  unfold Schema.text? Schema.source?
  generalize (tree.schema id).body = here at body ⊢
  generalize (tree'.schema id).body = there at body ⊢
  cases body with
  | boolean value => rfl
  | object texts each => exact texts name listed

theorem title?_eq : (tree.schema id).title? = (tree'.schema id).title? :=
  concurs.text?_eq (by decide)

theorem description?_eq : (tree.schema id).description? = (tree'.schema id).description? :=
  concurs.text?_eq (by decide)

/-- What is found by keywords is found in both schemas. -/
theorem findSome?_eq {α : Type} {read : Clause → Option α}
    (reads : ∀ clause clause' : Clause, clause.keyword = clause'.keyword → read clause = read clause') :
    (tree.schema id).clauses.findSome? read = (tree'.schema id).clauses.findSome? read := by
  have each := concurs.keywords id
  generalize (tree.schema id).clauses = clauses at each ⊢
  generalize (tree'.schema id).clauses = clauses' at each ⊢
  induction each with
  | nil => rfl
  | cons here _ ih => rw [List.findSome?_cons, List.findSome?_cons, reads _ _ here, ih]

theorem reference?_eq : (tree.schema id).reference? = (tree'.schema id).reference? :=
  concurs.findSome?_eq fun _ _ same => by rw [same]

theorem allOf?_eq : (tree.schema id).allOf? = (tree'.schema id).allOf? :=
  concurs.findSome?_eq fun _ _ same => by rw [same]

/-- The same schemas ask for null and nothing else. -/
theorem isNullType_eq : (tree.schema id).isNullType = (tree'.schema id).isNullType := by
  have each := concurs.keywords id
  unfold Schema.isNullType
  generalize (tree.schema id).clauses = clauses at each ⊢
  generalize (tree'.schema id).clauses = clauses' at each ⊢
  cases each with
  | nil => rfl
  | @cons clause clause' _ _ here rest =>
    obtain ⟨location, keyword⟩ := clause
    obtain ⟨location', keyword'⟩ := clause'
    obtain rfl : keyword = keyword' := here
    -- Only a single keyword matters, and what it is.
    cases rest with
    | nil => cases keyword <;> rfl
    | cons => cases keyword <;> rfl

/-- The same schemas are references and nothing else. -/
theorem pureReference?_eq : tree.pureReference? id = tree'.pureReference? id := by
  unfold SchemaTree.pureReference? Schema.pureReference?
  dsimp only
  -- The choice depends on the keyword alone, so the chosen clauses are still related one by one.
  generalize chooses : (fun clause : Clause => _) = chosen
  have each : List.Forall₂ (fun clause clause' => clause.keyword = clause'.keyword)
      ((tree.schema id).clauses.filter chosen) ((tree'.schema id).clauses.filter chosen) := by
    refine List.rel_filter (fun clause clause' same => ?_) (concurs.keywords id)
    rw [← chooses]
    dsimp only
    rw [same]
  generalize (tree.schema id).clauses.filter chosen = clauses at each ⊢
  generalize (tree'.schema id).clauses.filter chosen = clauses' at each ⊢
  cases each with
  | nil => rfl
  | @cons clause clause' _ _ here rest =>
    obtain ⟨location, keyword⟩ := clause
    obtain ⟨location', keyword'⟩ := clause'
    obtain rfl : keyword = keyword' := here
    -- A reference is pure if it is the only clause chosen, which is compared keyword by keyword.
    cases rest with
    | nil => cases keyword <;> rfl
    | cons => cases keyword <;> rfl

theorem lastSegment_eq : tree.lastSegment = tree'.lastSegment := by
  funext id
  rw [lastSegment, lastSegment, concurs.location_eq]

/-- A schema joins both trees. -/
theorem reserve : (tree.reserve location).2.Concurs (tree'.reserve location).2 where
  size := by rw [size_reserve, size_reserve, concurs.size]
  location id := by
    -- Both trees have the same size, so the new schema gets the same identifier in both.
    rw [SchemaTree.location, SchemaTree.location, schema_reserve, schema_reserve, concurs.size]
    split
    · rfl
    · exact concurs.location id
  body id := by
    rw [schema_reserve, schema_reserve, concurs.size]
    split
    · -- A new schema begins as the boolean one in either tree.
      exact .boolean true
    · exact concurs.body id

/-- A schema is completed in both trees with bodies that say the same. -/
theorem complete {body body' : SchemaBody} (same : body.Concurs body') :
    (tree.complete id body).Concurs (tree'.complete id body') where
  size := by rw [size_complete, size_complete, concurs.size]
  location other := by rw [location_complete, location_complete, concurs.location]
  body other := by
    rw [schema_complete, schema_complete, concurs.size]
    split
    · exact same
    · exact concurs.body other

end SchemaTree.Concurs

namespace Reading

/-! One object: its keywords before and after its pairs are replaced. -/

section

variable {documents : Documents} {follow : Place → Reading SchemaId} {place : Place}
variable {siblings siblings' members : List (String × Json)} {key : String} {value : Json}
variable {tree last : SchemaTree} {side : Side}

/-- A keyword looks at its siblings only for the flag of its own side. -/
theorem keyword_siblings
    (flags : ∀ side : Side, key = side.key →
      isTrue siblings side.exclusiveKey = isTrue siblings' side.exclusiveKey) :
    keyword documents follow place siblings key value =
      keyword documents follow place siblings' key value := by
  have plain : plainKeyword (place.member key).location siblings key value =
      plainKeyword (place.member key).location siblings' key value := by
    -- Only the keywords of bounds look at their siblings at all.
    have bound (side : Side) (siblings : List (String × Json)) :
        plainKeyword (place.member side.key).location siblings side.key value =
          sideBound (place.member side.key).location siblings side side.exclusiveKey value := by
      cases side <;> rfl
    have alike (side : Side) (same : key = side.key) :
        plainKeyword (place.member key).location siblings key value =
          plainKeyword (place.member key).location siblings' key value := by
      subst same
      rw [bound, bound, sideBound, sideBound, flags side rfl]
    -- There are two such keywords, one for each side.
    by_cases minimum : key = "minimum"
    · exact alike .minimum minimum
    · by_cases maximum : key = "maximum"
      · exact alike .maximum maximum
      · unfold plainKeyword
        split <;> first | rfl | contradiction
  unfold keyword
  split
  -- Keywords with schemas in them do not mention their siblings.
  case h_5 => rw [plain]
  all_goals rfl

/-- What is lifted leaves the tree as it was. -/
theorem liftExcept_eq_ok {α : Type} {read : Except Fault α} {result : α} :
    (liftExcept read : Reading α) tree = .ok result last ↔ read = .ok result ∧ last = tree := by
  -- A lifted step succeeds or fails without looking at the tree.
  cases read with
  | ok held =>
    constructor
    · rintro ⟨⟩
      exact ⟨rfl, rfl⟩
    · rintro ⟨⟨⟩, rfl⟩
      rfl
  | error fault =>
    constructor
    · rintro ⟨⟩
    · rintro ⟨⟨⟩, -⟩

/-- The keyword of a bound. -/
theorem keyword_key :
    keyword documents follow place siblings side.key value =
      liftExcept (sideBound (place.member side.key).location siblings side side.exclusiveKey value) := by
  cases side <;> rfl

/-- The keyword of a bound that excludes its value. -/
theorem keyword_exclusiveKey :
    keyword documents follow place siblings side.exclusiveKey value =
      liftExcept (exclusiveBound (place.member side.exclusiveKey).location side value) := by
  cases side <;> rfl

/-- A number beside its flag is the bound that its exclusive keyword states. -/
theorem exclusiveBound_of_sideBound {location location' : String} {stated : Option Keyword}
    (flag : isTrue siblings side.exclusiveKey = true)
    (read : sideBound location siblings side side.exclusiveKey value = .ok stated) :
    exclusiveBound location' side value = .ok stated ∧
      ∃ bound, stated = some (.bound side bound) := by
  obtain ⟨number, held, rfl⟩ := exists_of_bind_eq_ok read
  have held := ofJson?_of_expectNumber held
  -- Reading the number a second time gives the same number, at any location.
  have again : expectNumber location' value = .ok number := by rw [expectNumber, held]
  rw [flag]
  refine ⟨?_, _, rfl⟩
  -- Under its exclusive keyword a number is a bound; only a boolean would be skipped.
  unfold exclusiveBound
  split
  · cases held
  · rw [again]
    rfl

/-- Where a pair is replaced an object says the same, with the number under another name. -/
theorem clauses_replace (paired : side.isPaired siblings = true) {found : List Clause}
    (ran : clauses documents follow place siblings members tree = .ok found last) :
    ∃ found', clauses documents follow place (side.upgrade siblings) (side.replace members) tree =
        .ok found' last ∧ List.Forall₂ Clause.Concurs found found' := by
  have flag := (Bool.and_eq_true_iff.mp paired).2
  induction members generalizing tree found with
  | nil =>
    rw [clauses] at ran
    cases ran
    exact ⟨[], by rw [Side.replace, clauses]; rfl, .nil⟩
  | cons member rest ih =>
    obtain ⟨key, value⟩ := member
    -- Each member is read by itself: first this one, then the rest in the tree it leaves.
    rw [clauses_cons] at ran
    obtain ⟨stated, between, first, ran⟩ := run_bind_eq_ok.mp ran
    obtain ⟨others, last', second, ran⟩ := run_bind_eq_ok.mp ran
    cases ran
    obtain ⟨others', second', each⟩ := ih second
    rw [Side.replace]
    split_ifs with isKey isFlag
    · -- The number: one bound under either name.
      subst isKey
      rw [keyword_key] at first
      obtain ⟨read, rfl⟩ := liftExcept_eq_ok.mp first
      obtain ⟨read', bound, rfl⟩ := exclusiveBound_of_sideBound flag read
      refine ⟨⟨(place.member side.exclusiveKey).location, .bound side bound⟩ :: others', ?_,
        .cons ⟨rfl, fun unbound => absurd rfl (unbound side bound)⟩ each⟩
      rw [clauses_cons, keyword_exclusiveKey]
      refine run_bind_eq_ok.mpr ⟨_, _, liftExcept_eq_ok.mpr ⟨read', rfl⟩, ?_⟩
      exact run_bind_eq_ok.mpr ⟨_, _, second', rfl⟩
    · -- The flag: nothing is stated by it.
      obtain ⟨rfl, isBool⟩ := isFlag
      rw [keyword_exclusiveKey] at first
      obtain ⟨read, rfl⟩ := liftExcept_eq_ok.mp first
      cases value with
      | bool held =>
        cases read
        exact ⟨others', second', each⟩
      | _ => cases isBool
    · -- Any other member: the siblings that it looks at are as before.
      have flags : ∀ other : Side, key = other.key →
          isTrue siblings other.exclusiveKey = isTrue (side.upgrade siblings) other.exclusiveKey := by
        rintro other rfl
        exact (Side.isTrue_upgrade fun same => isKey (congrArg Side.key same)).symm
      refine ⟨_, ?_, List.rel_append (Clause.concur_refl _) each⟩
      rw [clauses_cons, ← keyword_siblings flags]
      refine run_bind_eq_ok.mpr ⟨_, _, first, ?_⟩
      exact run_bind_eq_ok.mpr ⟨_, _, second', rfl⟩

/-- Where pairs are replaced an object says the same. -/
theorem clauses_upgradeSides (sides : List Side) {found : List Clause}
    (ran : clauses documents follow place members members tree = .ok found last) :
    ∃ found', clauses documents follow place (upgradeSides sides members) (upgradeSides sides members)
        tree = .ok found' last ∧ List.Forall₂ Clause.Concurs found found' := by
  induction sides generalizing members found with
  | nil => exact ⟨found, ran, Clause.concur_refl found⟩
  | cons side rest ih =>
    rw [upgradeSides, List.foldl_cons]
    -- A side without a pair is left as it is.
    by_cases paired : side.isPaired members = true
    · obtain ⟨middle, ran, each⟩ := clauses_replace paired ran
      have replaced : side.replace members = side.upgrade members := (if_pos paired).symm
      rw [replaced] at ran
      obtain ⟨found', ran, each'⟩ := ih ran
      exact ⟨found', ran, Clause.concur_trans each each'⟩
    · have same : side.upgrade members = members := if_neg paired
      rw [same]
      exact ih ran

/-- Schemas lie in the same way inside an upgraded value. -/
theorem nesting_upgrades {value' : Json} (upgrades : value.Upgrades value') :
    nesting key value' = nesting key value := by
  cases upgrades with
  | same => rfl
  | array each => unfold nesting; split <;> simp_all
  | object sides names each => unfold nesting; split <;> simp_all

/-- What is no keyword states nothing, whatever its value. -/
theorem plainKeyword_of_unnamed {location : String} (unnamed : key ∉ keywordNames)
    (unmodified : key ∉ ["exclusiveMinimum", "exclusiveMaximum", "required"])
    (noExtension : "x-".toList.isPrefixOf key.toList = false) :
    plainKeyword location siblings key value = .ok none := by
  unfold plainKeyword
  split
  case h_27 => rw [noExtension]; rfl
  -- Every other branch is one for a name of the two lists.
  all_goals first
    | exact absurd (by decide) unnamed
    | exact absurd (by decide) unmodified

/-- Whether the value of a member is kept as it is. -/
def isKept (key : String) : Bool :=
  key ∈ ["const", "enum", "default", "examples", "example"] || "x-".toList.isPrefixOf key.toList

/-- A keyword without schemas inside states the same of an upgraded value, if values that are kept are
left as they are. -/
theorem plainKeyword_upgrades {location : String} {value' : Json} {stated : Option Keyword}
    (upgrades : value.Upgrades value') (kept : isKept key = true → value' = value)
    (plain : nesting key value = .none) (direct : key ≠ "$ref")
    (read : plainKeyword location siblings key value = .ok stated) :
    plainKeyword location siblings key value' = .ok stated := by
  -- If nothing was upgraded inside the value, there is nothing to show.
  by_cases same : value' = value
  · rw [same]
    exact read
  have deep : ¬value.IsFlat := fun flat => same (upgrades.eq_of_isFlat flat)
  -- What the keyword records tells what its value looks like, and a flat value has nothing inside
  -- to upgrade.
  have records : Records {} {} ⟨"", ""⟩ siblings key value stated :=
    records_plainKeyword plain direct read
  cases stated with
  | none =>
    -- A member that is no keyword, because a flag has nothing inside.
    have unmodified : key ∉ ["exclusiveMinimum", "exclusiveMaximum", "required"] := by
      intro modified
      have flag : value.bool?.isNone = false := by simpa [Records, isRecognised, modified] using records
      cases value with
      | bool held => exact deep trivial
      | _ => cases flag
    have unnamed : (decide (key ∈ keywordNames) || "x-".toList.isPrefixOf key.toList) = false := by
      simpa only [Records, isRecognised, if_neg unmodified] using records
    obtain ⟨unnamed, noExtension⟩ := Bool.or_eq_false_iff.mp unnamed
    exact plainKeyword_of_unnamed (of_decide_eq_false unnamed) unmodified noExtension
  | some keyword =>
    -- Whatever was stated was read of texts, of something flat or of a value that is kept.
    refine absurd ?_ same
    obtain ⟨-, spells⟩ := records
    cases keyword with
    | types names =>
      obtain ⟨-, rfl | ⟨type, -, rfl⟩⟩ := spells
      · exact upgrades.eq_of_flatItems fun item member => by
          obtain ⟨type, -, rfl⟩ := List.mem_map.mp member
          trivial
      · exact upgrades.eq_of_isFlat trivial
    | required names =>
      obtain ⟨-, rfl⟩ := spells
      exact upgrades.eq_of_flatItems fun item member => by
        obtain ⟨name, -, rfl⟩ := List.mem_map.mp member
        trivial
    | bound side bound => exact upgrades.eq_of_isFlat (Json.isFlat_of_ofJson? spells.1)
    | multipleOf number => exact upgrades.eq_of_isFlat (Json.isFlat_of_ofJson? spells.2)
    | minCount counted least | maxCount counted most =>
      exact upgrades.eq_of_isFlat (Json.isFlat_of_count? spells.2)
    | format name | pattern text | uniqueItems unique =>
      exact upgrades.eq_of_isFlat (spells.2 ▸ trivial)
    | constant held | enumeration values | default held =>
      exact kept (spells.1 ▸ rfl)
    | examples values =>
      rcases spells with ⟨rfl, -⟩ | ⟨rfl, -⟩
      · exact kept rfl
      · exact kept rfl
    | extension name held => exact kept (by rw [isKept, spells.1, Bool.or_true])
    | reference text target => exact absurd spells.1 direct
    | properties entries | patternProperties entries | allOf ids | anyOf ids | oneOf ids =>
      obtain ⟨rfl, -⟩ := spells
      cases value <;> cases plain
    | additionalProperties inner | items inner | negation inner =>
      obtain ⟨rfl, -⟩ := spells
      cases value <;> cases plain

end

end Reading

end SchemaClasses
