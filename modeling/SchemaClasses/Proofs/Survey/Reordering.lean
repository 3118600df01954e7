import SchemaClasses.Proofs.Survey.Gathering
import SchemaClasses.Proofs.Survey.WellFormed

/-! The order in which schemas are combined does not matter: what a survey tells of a value is a set,
and what a record says of it follows from that set. -/

namespace SchemaClasses

/-- The same keyword, but for the order of schemas that are combined. -/
inductive Keyword.Reordered : Keyword → Keyword → Prop where
  | same (keyword : Keyword) : Reordered keyword keyword
  | allOf {branches branches' : List SchemaId} (perm : branches.Perm branches') :
      Reordered (.allOf branches) (.allOf branches')

/-- The same schema, but for the order of schemas that are combined. -/
inductive SchemaBody.Reordered : SchemaBody → SchemaBody → Prop where
  | boolean (value : Bool) : Reordered (.boolean value) (.boolean value)
  | object {source source' : Json} {clauses clauses' : List Clause}
      (each : List.Forall₂ (fun clause clause' : Clause => clause.keyword.Reordered clause'.keyword)
        clauses clauses') : Reordered (.object source clauses) (.object source' clauses')

/-- The same schemas by the same numbers, but for the order of schemas that are combined. -/
structure SchemaTree.Reordered (tree tree' : SchemaTree) : Prop where
  size : tree.schemas.size = tree'.schemas.size
  body : ∀ schema, (tree.schema schema).body.Reordered (tree'.schema schema).body

theorem Keyword.Reordered.symm {keyword keyword' : Keyword} (reordered : keyword.Reordered keyword') :
    keyword'.Reordered keyword := by
  cases reordered with
  | same => exact .same keyword
  | allOf perm => exact .allOf perm.symm

/-- Only branches that are combined can be reordered. -/
theorem Keyword.Reordered.eq {keyword keyword' : Keyword} (reordered : keyword.Reordered keyword')
    (own : ∀ branches, keyword ≠ .allOf branches) : keyword' = keyword := by
  cases reordered with
  | same => rfl
  | @allOf branches _ _ => exact absurd rfl (own branches)

theorem SchemaBody.Reordered.symm {body body' : SchemaBody} (reordered : body.Reordered body') :
    body'.Reordered body := by
  cases reordered with
  | boolean value => exact .boolean value
  | object each => exact .object (each.flip.imp fun _ _ reordered => reordered.symm)

theorem SchemaBody.Reordered.refl (body : SchemaBody) : body.Reordered body := by
  cases body with
  | boolean value => exact .boolean value
  | object source clauses => exact .object (List.forall₂_same.mpr fun _ _ => .same _)

/-- A boolean schema has no order. -/
theorem SchemaBody.Reordered.boolean_iff {body body' : SchemaBody} (reordered : body.Reordered body')
    {value : Bool} : body = .boolean value ↔ body' = .boolean value := by
  cases reordered with
  | boolean => exact Iff.rfl
  | object => simp

namespace SchemaTree

namespace Reordered

variable {tree tree' : SchemaTree} {keyword keyword' : Keyword} {route : Route}

/-- Trees whose schemas are the same one by one, but for the order of schemas that are combined. -/
theorem of_schemas (each : List.Forall₂
    (fun schema schema' : Schema => schema.body.Reordered schema'.body)
    tree.schemas.toList tree'.schemas.toList) : tree.Reordered tree' := by
  obtain ⟨length, each⟩ := List.forall₂_iff_get.mp each
  have size : tree.schemas.size = tree'.schemas.size := by simpa using length
  refine ⟨size, fun id => ?_⟩
  unfold SchemaTree.schema Array.getD
  -- A number is in range of both trees or of none.
  by_cases inside : id.index < tree.schemas.size
  · rw [dif_pos inside, dif_pos (size ▸ inside)]
    exact each id.index (by simpa using inside) (by simpa [← size] using inside)
  · rw [dif_neg inside, dif_neg (size ▸ inside)]
    exact .boolean true

theorem symm (reordered : tree.Reordered tree') : tree'.Reordered tree where
  size := reordered.size.symm
  body schema := (reordered.body schema).symm

theorem ids_eq (reordered : tree.Reordered tree') : tree.ids = tree'.ids := by
  unfold SchemaTree.ids
  rw [reordered.size]

theorem clauses (reordered : tree.Reordered tree') (schema : SchemaId) :
    List.Forall₂ (fun clause clause' : Clause => clause.keyword.Reordered clause'.keyword)
      (tree.schema schema).clauses (tree'.schema schema).clauses := by
  -- Bodies are booleans in both trees or lists of keywords that differ in order inside.
  have body := reordered.body schema
  unfold Schema.clauses
  generalize (tree.schema schema).body = before at body
  generalize (tree'.schema schema).body = after at body
  cases body with
  | boolean => exact .nil
  | object each => exact each

/-- Each keyword of a schema is one of the same schema there. -/
theorem exists_clause (reordered : tree.Reordered tree') {schema : SchemaId} {clause : Clause}
    (stated : clause ∈ (tree.schema schema).clauses) :
    ∃ clause' ∈ (tree'.schema schema).clauses, clause.keyword.Reordered clause'.keyword := by
  obtain ⟨index, inside, rfl⟩ := List.mem_iff_getElem.mp stated
  obtain ⟨length, each⟩ := List.forall₂_iff_get.mp (reordered.clauses schema)
  exact ⟨_, List.getElem_mem (length ▸ inside), each index inside (length ▸ inside)⟩

theorem isNullType_eq (reordered : tree.Reordered tree') (schema : SchemaId) :
    (tree.schema schema).isNullType = (tree'.schema schema).isNullType := by
  have each := reordered.clauses schema
  unfold Schema.isNullType
  generalize (tree.schema schema).clauses = clauses at each
  generalize (tree'.schema schema).clauses = clauses' at each
  -- A schema for null has one keyword, and that states its type.
  cases each with
  | nil => rfl
  | @cons clause clause' rest rest' first each =>
    cases each with
    | cons => simp
    | nil =>
      obtain ⟨location, keyword⟩ := clause
      obtain ⟨location', keyword'⟩ := clause'
      -- The one keyword is the same or combines schemas, which states no type.
      cases first with
      | same => cases keyword <;> rfl
      | allOf => rfl

theorem nullableForm?_eq (reordered : tree.Reordered tree') (branches : List SchemaId) :
    Survey.nullableForm? tree branches = Survey.nullableForm? tree' branches := by
  unfold Survey.nullableForm?
  split
  · rw [reordered.isNullType_eq, reordered.isNullType_eq]
  · rfl

theorem additionalRank_eq (reordered : tree.Reordered tree') (schema : SchemaId) :
    tree.additionalRank schema = tree'.additionalRank schema := by
  have body := reordered.body schema
  unfold additionalRank
  generalize (tree.schema schema).body = before at body
  generalize (tree'.schema schema).body = after at body
  cases body <;> rfl

theorem branches_eq (reordered : tree.Reordered tree') (same : keyword.Reordered keyword') :
    tree.branches keyword = tree'.branches keyword' := by
  cases same with
  | same =>
    cases keyword <;> first | rfl | skip
    simp only [branches, reordered.nullableForm?_eq]
  | allOf => rfl

/-- A keyword leads to the same schemas in both trees. -/
theorem leads_subset (reordered : tree.Reordered tree') (same : keyword.Reordered keyword') :
    tree.leads route keyword ⊆ tree'.leads route keyword' := by
  -- The branches of a combination are the same ones in another order.
  cases same with
  | allOf perm =>
    intro lead leads
    obtain ⟨branch, member, rfl⟩ := List.mem_map.mp leads
    exact List.mem_map.mpr ⟨branch, perm.mem_iff.mp member, rfl⟩
  | same =>
    -- The same keyword leads alike, since the bodies that it depends on are reordered at most.
    suffices same : tree.leads route keyword = tree'.leads route keyword by
      rw [same]
      exact List.Subset.refl _
    -- Other keywords either lead nowhere or look at the form of schemas.
    cases keyword <;> first | rfl | skip
    case anyOf => simp only [leads, reordered.nullableForm?_eq]
    case oneOf => simp only [leads, reordered.nullableForm?_eq]
    case additionalProperties schema =>
      have body := reordered.body schema
      simp only [leads]
      generalize (tree.schema schema).body = before at body
      generalize (tree'.schema schema).body = after at body
      cases body <;> rfl

/-- What one tree tells is told by the other. -/
theorem tells (reordered : tree.Reordered tree') {opened : List SchemaId} {schema : SchemaId}
    {route there : Route} {entry : Entry} (tells : tree.Tells opened schema route there entry) :
    tree'.Tells opened schema route there entry := by
  -- Each entry is told by the same keyword of the other tree.
  induction tells with
  | described => exact .described
  | boolean body => exact .boolean ((reordered.body _).boolean_iff.mp body)
  | keyword isOpen stated own =>
    obtain ⟨clause', stated', same⟩ := reordered.exists_clause stated
    rw [← same.eq own]
    exact .keyword isOpen stated' (same.eq own ▸ own)
  | branch isOpen stated branch =>
    obtain ⟨clause', stated', same⟩ := reordered.exists_clause stated
    exact .branch isOpen stated' (reordered.branches_eq same ▸ branch)
  -- Further inside, the two trees tell the same by induction.
  | inside isOpen stated leads _ ih =>
    obtain ⟨clause', stated', same⟩ := reordered.exists_clause stated
    exact .inside isOpen stated' (reordered.leads_subset same leads) ih

/-- Both trees tell the same. -/
theorem told_eq (reordered : tree.Reordered tree') (opened : List SchemaId) (schema : SchemaId)
    (route : Route) : tree.told opened schema route = tree'.told opened schema route :=
  Set.Subset.antisymm (fun _ => reordered.tells) fun _ => reordered.symm.tells

end Reordered

end SchemaTree

/-- The largest of the same numbers is the same. -/
theorem Largest.unique {written : Nat → Prop} {a b : Option Nat} (largest : Largest written a)
    (largest' : Largest written b) : a = b := by
  -- Both are the largest of the numbers, or there is no number.
  cases a with
  | none =>
    cases b with
    | none => rfl
    | some m => exact absurd largest'.1 (largest m)
  | some n =>
    cases b with
    | none => exact absurd largest.1 (largest' n)
    | some m => rw [Nat.le_antisymm (largest'.2 n largest.1) (largest.2 m largest'.1)]

/-- The smallest of the same numbers is the same. -/
theorem Smallest.unique {written : Nat → Prop} {a b : Option Nat} (smallest : Smallest written a)
    (smallest' : Smallest written b) : a = b := by
  -- As with the largest.
  cases a with
  | none =>
    cases b with
    | none => rfl
    | some m => exact absurd smallest'.1 (smallest m)
  | some n =>
    cases b with
    | none => exact absurd smallest.1 (smallest' n)
    | some m => rw [Nat.le_antisymm (smallest.2 m smallest'.1) (smallest'.2 n smallest.1)]

theorem CountRange.eq_of_limits {a b : CountRange} (least : a.least = b.least)
    (greatest : a.greatest = b.greatest) : a = b := by
  cases a
  cases b
  simp_all

namespace Bound

variable {side : Side}

/-- Bounds that are as tight as each other are the same. -/
theorem AsTight.antisymm {a b : Bound} (first : a.AsTight side b) (second : b.AsTight side a) :
    a = b := by
  -- Neither value can lie inside the other as well as reach it.
  have apart {a b : Bound} (inside : a.Inside side b) (back : b.AsTight side a) : False := by
    obtain ⟨n, m, whole, whole', strict⟩ := inside
    rcases back with ⟨m', n', held, held', strict'⟩ | ⟨same, -⟩
    · obtain rfl := Quantity.whole.inj (whole.symm.trans held')
      obtain rfl := Quantity.whole.inj (whole'.symm.trans held)
      cases side
      · exact absurd strict (Int.lt_asymm strict')
      · exact absurd strict (Int.lt_asymm strict')
    · obtain rfl := Quantity.whole.inj (whole.symm.trans (same.symm.trans whole'))
      cases side
      · exact Int.lt_irrefl _ strict
      · exact Int.lt_irrefl _ strict
  -- Where one bound lies inside the other, it cannot be the looser one.
  rcases first with inside | ⟨same, exclusive⟩
  · exact (apart inside second).elim
  · rcases second with inside | ⟨-, exclusive'⟩
    · exact (apart inside (.inr ⟨same, exclusive⟩)).elim
    · -- What is left is the same value on the same side of exclusion.
      obtain ⟨value, a⟩ := a
      obtain ⟨value', b⟩ := b
      obtain rfl : value = value' := same
      obtain rfl : a = b := Bool.eq_iff_iff.mpr ⟨exclusive', exclusive⟩
      rfl

/-- The tightest of the same bounds is the same. -/
theorem Tightest.unique {written : Bound → Prop} {a b : Option Bound}
    (tightest : Tightest side written a) (tightest' : Tightest side written b) : a = b := by
  -- Both are found among the bounds, so each is as tight as the other.
  cases a with
  | none =>
    cases b with
    | none => rfl
    | some m => exact absurd tightest'.1 (tightest m)
  | some n =>
    cases b with
    | none => exact absurd tightest.1 (tightest' n)
    | some m => rw [(tightest.2 m tightest'.1).antisymm (tightest'.2 n tightest.1)]

end Bound

/-- Whether two values are both missing or equal, which for JSON does not depend on the order of
members. -/
def Agreed {α : Type} [BEq α] : Option α → Option α → Prop
  | none, none => True
  | some a, some b => b = a ∨ (b == a) = true
  | _, _ => False

/-- The value that the same values agree on is equal. -/
theorem Common.agreed {α : Type} [BEq α] {written : α → Prop} {a b : Option α}
    (common : Common written a) (common' : Common written b) : Agreed a b := by
  -- A value on one side is one that the other side has to agree with.
  cases a with
  | none =>
    cases b with
    | none => trivial
    | some m => exact absurd common'.1 (common m)
  | some n =>
    cases b with
    | none => exact absurd common.1 (common' n)
    | some m => exact common.2 m common'.1

/-- Whether each item of one list has a partner in the other one, and the other way round. -/
structure Paired {α β : Type} (related : α → β → Prop) (as : List α) (bs : List β) : Prop where
  forth : ∀ a ∈ as, ∃ b ∈ bs, related a b
  back : ∀ b ∈ bs, ∃ a ∈ as, related a b

/-- Values that are both missing or related. -/
theorem rel_of_meets {α β : Type} {related : α → β → Prop} {held : Option α} {held' : Option β}
    (forth : ∀ a, held = some a → ∃ b, held' = some b ∧ related a b)
    (back : ∀ b, held' = some b → ∃ a, held = some a) : Option.Rel related held held' := by
  -- A value of the second would give one of the first.
  cases held with
  | some a =>
    obtain ⟨b, rfl, meets⟩ := forth a rfl
    exact .some meets
  | none =>
    cases held' with
    | none => exact .none
    | some b =>
      obtain ⟨a, impossible⟩ := back b rfl
      cases impossible

/-- An item that its key tells apart from all others is found by it. -/
theorem find?_of_nodup {α β : Type} [BEq β] [LawfulBEq β] {key : α → β} {items : List α} {item : α}
    (nodup : (items.map key).Nodup) (member : item ∈ items) :
    items.find? (key · == key item) = some item := by
  cases found : items.find? (key · == key item) with
  | none => exact absurd (List.find?_eq_none.mp found item member) (by simp)
  | some other =>
    have same := List.find?_some found
    rw [List.inj_on_of_nodup_map nodup (List.mem_of_find?_eq_some found) member (beq_iff_eq.mp same)]

/-- The same kind of additional properties, with related records for their values. -/
inductive AdditionalProperties.Alike (related : RecordId → RecordId → Prop) :
    Option AdditionalProperties → Option AdditionalProperties → Prop where
  | unset : Alike related none none
  | allowed : Alike related (some .allowed) (some .allowed)
  | forbidden : Alike related (some .forbidden) (some .forbidden)
  | schema {a b : RecordId} (each : related a b) :
      Alike related (some (.schema a)) (some (.schema b))

/-- Records that say the same of their own values, where lists are taken as sets. Titles, descriptions,
references, examples and extensions may differ. -/
structure Record.Alike (record record' : Record) : Prop where
  types (type : JsonType) : type ∈ record.types ↔ type ∈ record'.types
  nullable : record.nullable = record'.nullable
  bound (side : Side) : record.bound side = record'.bound side
  count (counted : Countable) : record.count counted = record'.count counted
  multipleOf (value : Quantity) : value ∈ record.multipleOf ↔ value ∈ record'.multipleOf
  patterns (text : String) : text ∈ record.patterns ↔ text ∈ record'.patterns
  formats (name : String) : name ∈ record.formats ↔ name ∈ record'.formats
  enumeration : Agreed record.enumeration record'.enumeration
  constant : Agreed record.constant record'.constant
  default : Agreed record.default record'.default
  uniqueItems : record.uniqueItems = record'.uniqueItems
  required (name : String) : name ∈ record.required ↔ name ∈ record'.required

namespace Ledger

/-- Records of two ledgers that are alike, with related records inside. Branches are only compared by
their schemas. -/
structure Matches (ledger ledger' : Ledger) (related : RecordId → RecordId → Prop)
    (a b : RecordId) : Prop where
  alike : (ledger.record a).Alike (ledger'.record b)
  branches (schema : SchemaId) : ledger.hasBranch a schema = ledger'.hasBranch b schema
  properties : Paired (fun p q => ledger.name p = ledger'.name q ∧ related p q)
    (ledger.record a).properties (ledger'.record b).properties
  patternProperties : Paired (fun p q => p.pattern = q.pattern ∧ related p.record q.record)
    (ledger.record a).patternProperties (ledger'.record b).patternProperties
  additional : AdditionalProperties.Alike related (ledger.record a).additional
    (ledger'.record b).additional
  items : Option.Rel related (ledger.record a).items (ledger'.record b).items
  mirror : Option.Rel related (ledger.mirror? a) (ledger'.mirror? b)

/-- Records that match, with records inside that match again, however deep one goes. -/
def Agree (ledger ledger' : Ledger) (a b : RecordId) : Prop :=
  ∃ related : RecordId → RecordId → Prop, related a b ∧
    ∀ a b, related a b → ledger.Matches ledger' related a b

end Ledger

namespace Record

variable {tree tree' : SchemaTree} {told : Set Entry} {record record' : Record}
variable {branched branched' : SchemaId → Prop}

/-- What sums up what one tree tells does so for the other one. -/
theorem Sums.reordered (sums : record.Sums tree branched told) (reordered : tree.Reordered tree') :
    record.Sums tree' branched told where
  combines := by
    obtain ⟨names, patterns, combines⟩ := sums.combines
    refine ⟨names, patterns, { combines with nullable := ?_ }⟩
    simpa only [reordered.nullableForm?_eq] using combines.nullable
  settled n := by simpa only [reordered.additionalRank_eq] using sums.settled n
  branches := sums.branches
  undenied := sums.undenied

/-- As much is settled about additional properties in all records that sum up the same. -/
theorem Sums.rank_eq (sums : record.Sums tree branched told)
    (sums' : record'.Sums tree branched' told) :
    AdditionalProperties.rank record.additional = AdditionalProperties.rank record'.additional :=
  eq_of_forall_lt_iff fun n => (sums.settled n).trans (sums'.settled n).symm

/-- Records that sum up the same are alike. -/
theorem Sums.alike (sums : record.Sums tree branched told) (sums' : record'.Sums tree branched' told)
    (whole : ∀ side bound, .keyword (.bound side bound) ∈ told → bound.IsWhole) :
    record.Alike record' := by
  -- Each field is determined by what was told, so that both records hold the same in it.
  obtain ⟨_, _, combines⟩ := sums.combines
  obtain ⟨_, _, combines'⟩ := sums'.combines
  constructor
  case types => exact fun type => (combines.types type).trans (combines'.types type).symm
  -- Null is admitted by both or by none, and neither of them denies it.
  case nullable =>
    have admitted : record.nullable = some true ↔ record'.nullable = some true :=
      combines.nullable.trans combines'.nullable.symm
    have undenied := sums.undenied
    have undenied' := sums'.undenied
    rcases held : record.nullable with _ | _ | _ <;>
      rcases held' : record'.nullable with _ | _ | _ <;> simp_all
  -- Whole bounds can be compared, so the tightest is determined.
  case bound =>
    intro side
    have tightest := (combines.bound side (whole side)).unique (combines'.bound side (whole side))
    cases side <;> exact tightest
  -- A range is known by its two limits.
  case count =>
    intro counted
    have least := (combines.least counted).unique (combines'.least counted)
    have greatest := (combines.greatest counted).unique (combines'.greatest counted)
    cases counted <;> exact CountRange.eq_of_limits least greatest
  case multipleOf => exact fun value => (combines.multipleOf value).trans (combines'.multipleOf value).symm
  case patterns => exact fun text => (combines.patterns text).trans (combines'.patterns text).symm
  case formats => exact fun name => (combines.formats name).trans (combines'.formats name).symm
  -- Single values agree as they stand for the same ones.
  case enumeration => exact combines.enumeration.agreed combines'.enumeration
  case constant => exact combines.constant.agreed combines'.constant
  case default => exact combines.default.agreed combines'.default
  case uniqueItems =>
    exact Bool.eq_iff_iff.mpr (combines.uniqueItems.trans combines'.uniqueItems.symm)
  case required => exact fun name => (combines.required name).trans (combines'.required name).symm

end Record

namespace Ledger

variable {ledger ledger' : Ledger} {root root' a b c : RecordId} {leg : Leg}

/-- Records at the end of the same route. -/
def Meet (ledger ledger' : Ledger) (root root' a b : RecordId) : Prop :=
  ∃ route, ledger.standing root route = .here a ∧ ledger'.standing root' route = .here b

theorem Meet.symm (meet : ledger.Meet ledger' root root' a b) :
    ledger'.Meet ledger root' root b a := by
  obtain ⟨route, here, here'⟩ := meet
  exact ⟨route, here', here⟩

namespace Gathered

variable {tree : SchemaTree} {log : Set (Route × Entry)}

/-- Where two ledgers have gathered the same, the same is settled about additional properties. -/
theorem rank_eq (gathered : ledger.Gathered tree root log)
    (gathered' : ledger'.Gathered tree root' log) (meet : ledger.Meet ledger' root root' a b) :
    AdditionalProperties.rank (ledger.record a).additional =
      AdditionalProperties.rank (ledger'.record b).additional := by
  obtain ⟨route, here, here'⟩ := meet
  exact (gathered.sums route a here).rank_eq (gathered'.sums route b here')

/-- Where two ledgers have gathered the same, what one leg leads to is met by what the other does. -/
theorem leg_meets (gathered : ledger.Gathered tree root log)
    (gathered' : ledger'.Gathered tree root' log) (meet : ledger.Meet ledger' root root' a b)
    (leads : ledger.leg a leg = .here c) :
    ∃ d, ledger'.leg b leg = .here d ∧ ledger.Meet ledger' root root' c d := by
  have rank := gathered.rank_eq gathered' meet
  obtain ⟨route, here, here'⟩ := meet
  have stands : ledger.standing root (leg :: route) = .here c := (standing_cons here).trans leads
  have stands' : ledger'.standing root' (leg :: route) = ledger'.leg b leg := standing_cons here'
  cases leads' : ledger'.leg b leg with
  | here d => exact ⟨d, rfl, leg :: route, stands, stands'.trans leads'⟩
  | vacant =>
    -- What is described has a record.
    exact absurd (stands'.trans leads') (gathered'.standing _ (gathered.described _ c stands))
  | lost =>
    -- What is lost for one is lost for the other.
    obtain ⟨rfl, forbidden⟩ := leg_eq_lost.mp leads'
    rw [AdditionalProperties.rank_eq_three.mpr forbidden] at rank
    rw [leg_eq_lost.mpr ⟨rfl, AdditionalProperties.rank_eq_three.mp rank⟩] at leads
    cases leads

/-- Where two ledgers have gathered the same, what stands in a place is met by what stands there. -/
theorem slot_meets (gathered : ledger.Gathered tree root log)
    (gathered' : ledger'.Gathered tree root' log) (meet : ledger.Meet ledger' root root' a b)
    (slot : Slot) (held : slot.held? ledger a = some c) :
    ∃ d, slot.held? ledger' b = some d ∧ ledger.Meet ledger' root root' c d := by
  obtain ⟨d, leads, meets⟩ := gathered.leg_meets gathered' meet (leg_slot_eq_here.mpr held)
  exact ⟨d, leg_slot_eq_here.mp leads, meets⟩

/-- A property is met by the one of the same name. -/
theorem property_meets (gathered : ledger.Gathered tree root log)
    (gathered' : ledger'.Gathered tree root' log) (meet : ledger.Meet ledger' root root' a b)
    (member : c ∈ (ledger.record a).properties) :
    ∃ d ∈ (ledger'.record b).properties,
      ledger.name c = ledger'.name d ∧ ledger.Meet ledger' root root' c d := by
  -- Properties have names, so the one at hand has a place by its name.
  cases named : ledger.name c with
  | none => exact absurd (List.mem_map.mpr ⟨c, member, named⟩) (gathered.sound.named.named a)
  | some name =>
    have found : (Slot.property name).held? ledger a = some c := by
      have found := find?_of_nodup (gathered.sound.named.nodup a) member
      rwa [named] at found
    -- The record in the same place of the other side meets it.
    obtain ⟨d, found', meets⟩ := gathered.slot_meets gathered' meet (.property name) found
    have named' := List.find?_some (found' : ledger'.property? b name = some d)
    exact ⟨d, List.mem_of_find?_eq_some found', (beq_iff_eq.mp named').symm, meets⟩

/-- A value of properties that match a pattern is met by the one of the same pattern. -/
theorem pattern_meets (gathered : ledger.Gathered tree root log)
    (gathered' : ledger'.Gathered tree root' log) (tidy : ledger.Tidy)
    (meet : ledger.Meet ledger' root root' a b) {entry : PatternProperty}
    (member : entry ∈ (ledger.record a).patternProperties) :
    ∃ entry' ∈ (ledger'.record b).patternProperties,
      entry.pattern = entry'.pattern ∧ ledger.Meet ledger' root root' entry.record entry'.record := by
  -- Patterns are distinct, so that the entry is the one that is looked up.
  have found : (Slot.patternProperty entry.pattern).held? ledger a = some entry.record :=
    Option.map_eq_some_iff.mpr ⟨entry, find?_of_nodup (tidy a).patterns member, rfl⟩
  obtain ⟨d, held, meets⟩ := gathered.slot_meets gathered' meet (.patternProperty entry.pattern) found
  obtain ⟨entry', found', rfl⟩ := Option.map_eq_some_iff.mp held
  have same := List.find?_some found'
  exact ⟨entry', List.mem_of_find?_eq_some found', (beq_iff_eq.mp same).symm, meets⟩

/-- What a value must not be is met by what the other one must not be. -/
theorem mirror_meets (gathered : ledger.Gathered tree root log)
    (gathered' : ledger'.Gathered tree root' log) (meet : ledger.Meet ledger' root root' a b)
    (held : ledger.mirror? a = some c) :
    ∃ d, ledger'.mirror? b = some d ∧ ledger.Meet ledger' root root' c d := by
  obtain ⟨route, here, here'⟩ := meet
  have flipped := standing_flip gathered.sound gathered.positive here
  have flipped' := standing_flip gathered'.sound gathered'.positive here'
  -- The flipped route leads to the mirror on this side.
  rw [held] at flipped
  cases held' : ledger'.mirror? b with
  | some d => exact ⟨d, rfl, route.flip, flipped, by rw [flipped', held']; rfl⟩
  -- What is described on one side is described on the other as well.
  | none =>
    rw [held'] at flipped'
    exact absurd flipped' (gathered'.standing _ (gathered.described _ c flipped))

/-- Additional properties are of the same kind, and their values meet. -/
theorem additional_alike (gathered : ledger.Gathered tree root log)
    (gathered' : ledger'.Gathered tree root' log) (meet : ledger.Meet ledger' root root' a b) :
    AdditionalProperties.Alike (ledger.Meet ledger' root root') (ledger.record a).additional
      (ledger'.record b).additional := by
  have rank := gathered.rank_eq gathered' meet
  have meets (c : RecordId) (held : (ledger.record a).additional.bind (·.record?) = some c) :
      ∃ d, (ledger'.record b).additional.bind (·.record?) = some d ∧
        ledger.Meet ledger' root root' c d :=
    gathered.slot_meets gathered' meet .additional held
  -- Kinds of equal rank are the same kind.
  rcases held : (ledger.record a).additional with _ | (_ | _ | c) <;>
    rcases held' : (ledger'.record b).additional with _ | (_ | _ | d) <;>
    simp only [held, held'] at rank meets <;> try cases rank
  · exact .unset
  · exact .allowed
  · exact .forbidden
  · -- Both hold a schema, and these meet by the place.
    obtain ⟨d', same, meets⟩ := meets c rfl
    cases same
    exact .schema meets

/-- What gathers all that one tree tells does so for the other one. -/
theorem reordered {tree' : SchemaTree} (gathered : ledger.Gathered tree root log)
    (reordered : tree.Reordered tree') : ledger.Gathered tree' root log :=
  { gathered with sums := fun route id here => (gathered.sums route id here).reordered reordered }

/-- Two ledgers that have gathered the same agree on their roots. -/
theorem agree (gathered : ledger.Gathered tree root log)
    (gathered' : ledger'.Gathered tree root' log) (tidy : ledger.Tidy) (tidy' : ledger'.Tidy)
    (whole : ∀ note ∈ log, ∀ side bound, note.2 = .keyword (.bound side bound) → bound.IsWhole) :
    ledger.Agree ledger' root root' := by
  -- Records meet if some route leads to both, and those that meet agree in every place.
  refine ⟨ledger.Meet ledger' root root', ⟨[], rfl, rfl⟩, fun a b meet => ?_⟩
  have ⟨route, here, here'⟩ := meet
  -- Both records sum up what is told at the end of the route.
  have sums := gathered.sums route a here
  have sums' := gathered'.sums route b here'
  exact {
    alike := sums.alike sums' fun side bound noted => whole _ noted side bound rfl
    branches := fun schema =>
      Bool.eq_iff_iff.mpr ((sums.branches schema).trans (sums'.branches schema).symm)
    -- Places of both sides are gone through, forth and back.
    properties := ⟨fun c member => gathered.property_meets gathered' meet member,
      fun d member => by
        obtain ⟨c, member, named, meets⟩ := gathered'.property_meets gathered meet.symm member
        exact ⟨c, member, named.symm, meets.symm⟩⟩
    patternProperties := ⟨fun p member => gathered.pattern_meets gathered' tidy meet member,
      fun q member => by
        obtain ⟨p, member, same, meets⟩ := gathered'.pattern_meets gathered tidy' meet.symm member
        exact ⟨p, member, same.symm, meets.symm⟩⟩
    additional := gathered.additional_alike gathered' meet
    items := rel_of_meets (fun c held => gathered.slot_meets gathered' meet .items held)
      fun d held => (gathered'.slot_meets gathered meet.symm .items held).imp fun _ => And.left
    -- Mirrors are met in both directions as well.
    mirror := rel_of_meets (fun c held => gathered.mirror_meets gathered' meet held)
      fun d held => (gathered'.mirror_meets gathered meet.symm held).imp fun _ => And.left }

end Gathered

end Ledger

/-- Whether all bounds that a tree states are whole numbers of 64 bits. -/
def SchemaTree.HasWholeBounds (tree : SchemaTree) : Prop :=
  ∀ side bound, tree.StatesBound side bound → bound.IsWhole ∧ bound.value.IsProper

/-- A bound that is told is stated in the tree. -/
theorem SchemaTree.Tells.statesBound {tree : SchemaTree} {opened : List SchemaId} {schema : SchemaId}
    {route there : Route} {entry : Entry} {side : Side} {bound : Bound}
    (tells : tree.Tells opened schema route there entry)
    (isBound : entry = .keyword (.bound side bound)) : tree.StatesBound side bound := by
  induction tells with
  | keyword isOpen stated own => exact ⟨_, _, stated, Entry.keyword.inj isBound⟩
  | inside _ _ _ _ ih => exact ih isBound
  | _ => cases isBound

/-- Both trees state the same bounds. -/
theorem SchemaTree.Reordered.statesBound {tree tree' : SchemaTree} {side : Side} {bound : Bound}
    (reordered : tree.Reordered tree') (states : tree'.StatesBound side bound) :
    tree.StatesBound side bound := by
  obtain ⟨schema, clause, stated, isBound⟩ := states
  obtain ⟨clause', stated', same⟩ := reordered.symm.exists_clause stated
  rw [isBound] at same
  exact ⟨schema, clause', stated', same.eq (by simp)⟩

namespace Survey

variable {tree tree' : SchemaTree} {root : SchemaId} {id id' : RecordId} {last last' : Survey}

/-- The order in which schemas are combined does not matter: whatever was surveyed before, if a schema
is surveyed without a fault in two trees that differ in nothing else, the two records agree, and so do
the records inside them, however deep. -/
theorem agree_of_reordered (reordered : tree.Reordered tree') (whole : tree.HasWholeBounds)
    (before before' : List SchemaId) (begun : begin tree root (beginAll tree before {}) = .ok id last)
    (begun' : begin tree' root (beginAll tree' before' {}) = .ok id' last') :
    last.ledger.Agree last'.ledger id id' := by
  -- Whole bounds are proper ones, in either tree.
  have proper : tree.HasProperBounds := fun side bound states => (whole side bound states).2
  have proper' : tree'.HasProperBounds := fun side bound states =>
    proper side bound (reordered.statesBound states)
  -- Ledgers of surveys are tidy, so that entries can be looked up by their patterns.
  have tidy {tree : SchemaTree} {before : List SchemaId} {id : RecordId} {last : Survey}
      (begun : begin tree root (beginAll tree before {}) = .ok id last) : last.ledger.Tidy := by
    obtain ⟨sound, tidy⟩ := kept_beginAll tree before
    have kept := (@kept_begin tree _ root sound tidy).2.1
    rwa [lastState, begun] at kept
  -- Each record is a summary of the set of all that its tree tells, and both trees tell the same.
  have gathered := gathered_begin proper (kept_beginAll tree before).1 begun
  have gathered' := gathered_begin proper' (kept_beginAll tree' before').1 begun'
  -- Both trees tell the same, so the second log may be replaced by the first.
  rw [← reordered.ids_eq, ← reordered.told_eq] at gathered'
  refine gathered.agree (gathered'.reordered reordered.symm) (tidy begun) (tidy begun') ?_
  exact fun note told side bound isBound => (whole side bound (told.statesBound isBound)).1

/-- Two schemas for one value, each with properties, a value for additional properties and something
that the value must not be, combined in the order given. -/
def combinedTree (branches : List SchemaId) : SchemaTree where
  schemas := #[
    ⟨"a", .object .null [⟨"a", .allOf branches⟩]⟩,
    ⟨"b", .object .null [
      ⟨"b", .types [.string]⟩, ⟨"b", .properties [("p", ⟨3⟩), ("q", ⟨0⟩)]⟩, ⟨"b", .negation ⟨3⟩⟩,
      ⟨"b", .additionalProperties ⟨3⟩⟩, ⟨"b", .bound .minimum ⟨.whole 3, false⟩⟩]⟩,
    ⟨"c", .object .null [
      ⟨"c", .types [.integer, .null]⟩, ⟨"c", .properties [("r", ⟨4⟩), ("p", ⟨4⟩)]⟩,
      ⟨"c", .negation ⟨4⟩⟩, ⟨"c", .additionalProperties ⟨5⟩⟩,
      ⟨"c", .bound .minimum ⟨.whole 3, true⟩⟩]⟩,
    ⟨"d", .object .null [⟨"d", .format "date"⟩, ⟨"d", .oneOf [⟨4⟩, ⟨5⟩]⟩]⟩,
    ⟨"e", .object .null [⟨"e", .minCount .length 2⟩, ⟨"e", .additionalProperties ⟨3⟩⟩]⟩,
    ⟨"f", .boolean false⟩]

theorem reordered_combinedTree :
    (combinedTree [⟨1⟩, ⟨2⟩]).Reordered (combinedTree [⟨2⟩, ⟨1⟩]) := by
  refine .of_schemas (.cons (.object (.cons (.allOf (.swap _ _ _)) .nil)) ?_)
  exact List.forall₂_same.mpr fun schema _ => .refl schema.body

theorem hasWholeBounds_combinedTree (branches : List SchemaId) :
    (combinedTree branches).HasWholeBounds := by
  have each := @SchemaTree.forall_clauses (combinedTree branches) (fun clause => ∀ side bound,
    clause.keyword = .bound side bound → bound.IsWhole ∧ bound.value.IsProper)
  rintro side bound ⟨schema, clause, stated, isBound⟩
  refine each ?_ schema clause stated side bound isBound
  simp only [combinedTree, Schema.clauses, Bound.IsWhole]
  have proper : (Quantity.whole 3).IsProper := by decide
  simp [proper]

/-- Combined in both orders, types and properties come in different orders, and all agrees. -/
theorem agree_of_reordered_combined :
    ∃ id id' last last', begin (combinedTree [⟨1⟩, ⟨2⟩]) ⟨0⟩ {} = .ok id last ∧
      begin (combinedTree [⟨2⟩, ⟨1⟩]) ⟨0⟩ {} = .ok id' last' ∧
      (last.ledger.record id).types = [.string, .integer] ∧
      (last'.ledger.record id').types = [.integer, .string] ∧
      last.ledger.Agree last'.ledger id id' := by
  -- A run over the tree is computed for either order.
  have ran (branches : List SchemaId) (types : List JsonType) (runs : (match
      begin (combinedTree branches) ⟨0⟩ {} with
      | .ok id last => decide ((last.ledger.record id).types = types)
      | .error _ _ => false) = true) :
      ∃ id last, begin (combinedTree branches) ⟨0⟩ {} = .ok id last ∧
        (last.ledger.record id).types = types := by
    cases begun : begin (combinedTree branches) ⟨0⟩ {} with
    | ok id last =>
      rw [begun] at runs
      exact ⟨id, last, rfl, of_decide_eq_true runs⟩
    | error fault last =>
      rw [begun] at runs
      cases runs
  -- The types come in the order of the branches.
  obtain ⟨id, last, begun, types⟩ := ran [⟨1⟩, ⟨2⟩] [.string, .integer] (by decide +kernel)
  obtain ⟨id', last', begun', types'⟩ := ran [⟨2⟩, ⟨1⟩] [.integer, .string] (by decide +kernel)
  exact ⟨id, id', last, last', begun, begun', types, types',
    agree_of_reordered reordered_combinedTree (hasWholeBounds_combinedTree _) [] [] begun begun'⟩

end Survey

end SchemaClasses
