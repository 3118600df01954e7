import SchemaClasses.Proofs.Catalogue.Closure
import SchemaClasses.Proofs.Resolution.Holdings

/-! Which classes of other packages a declaration imports: all that it names, except for those that it
inherits from further up than its base. -/

namespace SchemaClasses

/-- The declaration that a class belongs to. -/
def ClassRef.owner : ClassRef → DeclarationId
  | .declaration id => id
  | .nested owner _ => owner

/-- A declaration that has grown, is called the same, extends what it extended, and imports what it
imported. -/
structure Declaration.Widens (before after : Declaration) : Prop extends before.Grows after where
  name : after.name = before.name
  package : after.package = before.package
  base : ∀ base, before.base = some base → after.base = some base
  imports : before.imports ⊆ after.imports

namespace Declaration.Widens

variable {a b c : Declaration}

theorem refl (declaration : Declaration) : declaration.Widens declaration :=
  ⟨.refl _, rfl, rfl, fun _ held => held, List.Subset.refl _⟩

theorem trans (first : a.Widens b) (second : b.Widens c) : a.Widens c :=
  ⟨first.toGrows.trans second.toGrows, second.name.trans first.name, second.package.trans first.package,
    fun base held => second.base base (first.base base held), List.Subset.trans first.imports second.imports⟩

/-- A declaration that is called the same has the same qualified name. -/
theorem qualifiedName_eq (widens : a.Widens b) : b.qualifiedName = a.qualifiedName := by
  rw [qualifiedName, qualifiedName, widens.name, widens.package]

/-- A declaration of which nothing but its relations to others is noted has grown if these are more. -/
theorem note {declaration : Declaration} {base : Option DeclarationId} {derived : List DeclarationId}
    {interfaces : List ClassRef} {imports : List String}
    (further : ∀ held, declaration.base = some held → base = some held)
    (more : declaration.imports ⊆ imports) :
    declaration.Widens { declaration with base, derived, interfaces, imports } :=
  ⟨⟨rfl, rfl, rfl, List.prefix_rfl, List.prefix_rfl, List.Subset.refl _, id⟩, rfl, rfl, further, more⟩

end Declaration.Widens

namespace Model

/-- Whether a declaration may name another one and what is nested in it: that is imported, unless it has no
package or lies in the same one. -/
def Imports (model : Model) (owner other : DeclarationId) : Prop :=
  (model.declaration other).package.isSome = true →
    (model.declaration other).package ≠ (model.declaration owner).package →
      (model.declaration other).qualifiedName ∈ (model.declaration owner).imports

/-- Whether a declaration extends another one, as it is noted. -/
def Derives (model : Model) (id base : DeclarationId) : Prop :=
  (model.declaration id).base = some base

/-- The classes that records of a declaration are given: declarations that may be named, and classes nested
in the declaration itself or, over any number of bases, in one that it extends. -/
def CanName (model : Model) (owner : DeclarationId) : ClassRef → Prop
  | .declaration other => model.Imports owner other
  | .nested other _ => Relation.ReflTransGen model.Derives owner other

/-- The model in which a declaration imports another one, unless that has no package or lies in the same
one. -/
def importing (model : Model) (owner other : DeclarationId) : Model :=
  if (model.declaration other).package.isSome ∧
      (model.declaration other).package ≠ (model.declaration owner).package then
    model.updateDeclaration owner (·.addImport (model.declaration other).qualifiedName)
  else model

variable {model before after : Model} {owner other id : DeclarationId} {ref : ClassRef}

/-- A declaration needs no import of itself. -/
theorem imports_self : model.Imports owner owner := fun _ different => absurd rfl different

/-- What is imported stays so. -/
theorem Imports.widen (imports : before.Imports owner other)
    (widens : ∀ id, (before.declaration id).Widens (after.declaration id)) :
    after.Imports owner other := by
  intro packaged different
  rw [(widens other).package] at packaged different
  rw [(widens owner).package] at different
  rw [(widens other).qualifiedName_eq]
  exact (widens owner).imports (imports packaged different)

/-- A class that was reached stays so. -/
theorem CanName.widen (names : before.CanName owner ref)
    (widens : ∀ id, (before.declaration id).Widens (after.declaration id)) : after.CanName owner ref := by
  cases ref with
  | declaration other => exact Imports.widen names widens
  | nested other index =>
    exact Relation.ReflTransGen.mono (fun id base derives => (widens id).base base derives) _ _ names

/-- An import leaves the records alone. -/
@[simp] theorem ledger_importing : (model.importing owner other).ledger = model.ledger := by
  unfold importing
  split <;> rfl

/-- An import adds no declaration. -/
@[simp] theorem size_importing :
    (model.importing owner other).declarations.size = model.declarations.size := by
  unfold importing
  split
  · exact size_updateDeclaration
  · rfl

/-- What is no import stays as it is. -/
theorem field_importing {α : Type} (field : Declaration → α)
    (kept : ∀ (declaration : Declaration) imports,
      field { declaration with imports } = field declaration) :
    field ((model.importing owner other).declaration id) = field (model.declaration id) := by
  unfold importing
  split
  · exact field_updateDeclaration field (kept ..)
  · rfl

/-- An import joins those that were there. -/
theorem widens_importing (id : DeclarationId) :
    (model.declaration id).Widens ((model.importing owner other).declaration id) := by
  unfold importing
  split
  · exact rel_updateDeclaration Declaration.Widens.refl
      (.note (fun _ held => held) fun _ member => mem_addNew.mpr (.inl member))
  · exact .refl _

/-- What is to be imported is imported. -/
theorem imports_importing (inside : owner.index < model.declarations.size) :
    (model.importing owner other).Imports owner other := by
  intro packaged different
  rw [(widens_importing other).package] at packaged different
  rw [(widens_importing owner).package] at different
  rw [(widens_importing other).qualifiedName_eq]
  rw [importing, if_pos ⟨packaged, different⟩, declaration_updateDeclaration, if_pos ⟨rfl, inside⟩]
  exact mem_addNew.mpr (.inr rfl)

/-- Records and declarations change independently of each other. -/
theorem importing_updateRecord {record : RecordId} {change : Record → Record} :
    (model.updateRecord record change).importing owner other =
      (model.importing owner other).updateRecord record change := by
  rw [importing, importing, apply_ite (Model.updateRecord · record change)]
  rfl

end Model

namespace Modelling

/-- A state of a resolution in which every declaration has a home of records that hold only each other: the
records in it are given classes that the declaration can name, and it imports its base and its interfaces.
The bases of the declarations in a set have been noted. -/
structure Acquainted (context : Context) (first : Model) (opened : Set DeclarationId)
    (homes : DeclarationId → Set RecordId) (model : Model) : Prop where
  inRange : model.ledger.InRange
  size : model.declarations.size = first.declarations.size
  grows : ∀ id, (first.declaration id).Grows (model.declaration id)
  inside : ∀ owner, ∀ id ∈ homes owner, owner.index < first.declarations.size ∧
    id.index < model.ledger.size
  apart : ∀ owner other id, id ∈ homes owner → id ∈ homes other → owner = other
  rooted : ∀ owner : DeclarationId, owner.index < first.declarations.size →
    (first.declaration owner).record ∈ homes owner
  closed : ∀ owner, ∀ id ∈ homes owner, ∀ child ∈ (model.ledger.record id).children,
    child ∈ homes owner
  housed : ∀ owner, ∀ nested ∈ (model.declaration owner).nested, nested.record ∈ homes owner
  variants : ∀ owner, ∀ nested ∈ (model.declaration owner).nested, ∀ ref ∈ nested.interfaces,
    ref.owner = owner
  opened : ∀ id ∈ opened, (model.declaration id).base = first.base? context.tree id
  based : ∀ id base, model.Derives id base →
    first.base? context.tree id = some base ∧ model.Imports id base
  implements : ∀ id, ∀ ref ∈ (model.declaration id).interfaces, model.Imports id ref.owner
  typed : ∀ owner, ∀ id ∈ homes owner, ∀ ref,
    (model.ledger.record id).typeRef = some (.generated ref) → model.CanName owner ref

variable {context : Context} {first start last : Model} {opened : Set DeclarationId}
variable {homes : DeclarationId → Set RecordId} {owner other : DeclarationId} {site : Site}
variable {id property : RecordId} {ref : ClassRef} {α β : Type}

namespace Acquainted

/-- What a change keeps of the records, and of the declarations, for all to stay acquainted. -/
theorem change (acquainted : Acquainted context first opened homes start)
    (size : start.ledger.size ≤ last.ledger.size) (inRange : last.ledger.InRange)
    (declarations : last.declarations.size = start.declarations.size)
    (widens : ∀ id, (start.declaration id).Widens (last.declaration id))
    (nested : ∀ owner, ∀ nested ∈ (last.declaration owner).nested,
      nested ∈ (start.declaration owner).nested ∨
        nested.record ∈ homes owner ∧ ∀ ref ∈ nested.interfaces, ref.owner = owner)
    (based : ∀ id base, last.Derives id base → start.Derives id base ∨
      first.base? context.tree id = some base ∧ last.Imports id base)
    (implements : ∀ id, ∀ ref ∈ (last.declaration id).interfaces,
      ref ∈ (start.declaration id).interfaces ∨ last.Imports id ref.owner)
    (children : ∀ owner, ∀ id ∈ homes owner, ∀ child ∈ (last.ledger.record id).children,
      child ∈ (start.ledger.record id).children ∨ child ∈ homes owner)
    (typed : ∀ owner, ∀ id ∈ homes owner, ∀ ref,
      (last.ledger.record id).typeRef = some (.generated ref) →
        (start.ledger.record id).typeRef = some (.generated ref) ∨ last.CanName owner ref) :
    Acquainted context first opened homes last where
  inRange := inRange
  -- A change never takes away, so each field follows from the old one and what may be new.
  size := declarations.trans acquainted.size
  grows id := (acquainted.grows id).trans (widens id).toGrows
  inside owner id acts := (acquainted.inside owner id acts).imp_right fun present =>
    Nat.lt_of_lt_of_le present size
  apart := acquainted.apart
  rooted := acquainted.rooted
  closed owner id acts child held :=
    (children owner id acts child held).elim (acquainted.closed owner id acts child) fun new => new
  housed owner class' member :=
    (nested owner class' member).elim (acquainted.housed owner class') And.left
  variants owner class' member :=
    (nested owner class' member).elim (acquainted.variants owner class') And.right
  opened id member := by
    -- The declaration is open, so that its base is the one that it extends, or none.
    cases extends' : first.base? context.tree id with
    | some base =>
      exact (widens id).base base ((acquainted.opened id member).trans extends')
    | none =>
      -- A base that is noted now is the one that the class extends, which is none.
      cases held : (last.declaration id).base with
      | none => rfl
      | some base =>
        have stands : first.base? context.tree id = some base :=
          (based id base held).elim (fun earlier => (acquainted.based id base earlier).1) And.left
        rw [extends'] at stands
        cases stands
  based id base held := by
    -- A base that was noted before is still imported.
    rcases based id base held with earlier | new
    · exact (acquainted.based id base earlier).imp_right fun imports => imports.widen widens
    · exact new
  implements id ref member := (implements id ref member).elim
    (fun earlier => (acquainted.implements id ref earlier).widen widens) fun new => new
  typed owner id acts ref held := (typed owner id acts ref held).elim
    (fun earlier => (acquainted.typed owner id acts ref earlier).widen widens) fun new => new

/-- The records change, and no declaration. -/
theorem records {ledger : Ledger} (acquainted : Acquainted context first opened homes start)
    (size : start.ledger.size ≤ ledger.size) (inRange : ledger.InRange)
    (children : ∀ owner, ∀ id ∈ homes owner, ∀ child ∈ (ledger.record id).children,
      child ∈ (start.ledger.record id).children ∨ child ∈ homes owner)
    (typed : ∀ owner, ∀ id ∈ homes owner, ∀ ref, (ledger.record id).typeRef = some (.generated ref) →
      (start.ledger.record id).typeRef = some (.generated ref) ∨ start.CanName owner ref) :
    Acquainted context first opened homes (start.withLedger ledger) :=
  -- Declarations are the same, and with them all that is named over them.
  acquainted.change size inRange rfl (fun _ => .refl _) (fun _ _ member => .inl member)
    (fun _ _ held => .inl held) (fun _ _ member => .inl member) children fun owner id acts ref held =>
      (typed owner id acts ref held).imp_right fun names => names.widen fun _ => .refl _

/-- The relations between declarations change, and no record. -/
theorem relations (acquainted : Acquainted context first opened homes start)
    (same : last.ledger = start.ledger) (declarations : last.declarations.size = start.declarations.size)
    (widens : ∀ id, (start.declaration id).Widens (last.declaration id))
    (nested : ∀ id, (last.declaration id).nested = (start.declaration id).nested)
    (based : ∀ id base, last.Derives id base → start.Derives id base ∨
      first.base? context.tree id = some base ∧ last.Imports id base)
    (implements : ∀ id, ∀ ref ∈ (last.declaration id).interfaces,
      ref ∈ (start.declaration id).interfaces ∨ last.Imports id ref.owner) :
    Acquainted context first opened homes last := by
  -- The ledger is the same, so its fields are read off the old one.
  refine acquainted.change (by rw [same]) (by rw [same]; exact acquainted.inRange) declarations widens
    (fun owner class' member => .inl (nested owner ▸ member)) based implements
    (fun owner id _ child held => .inl ?_) fun owner id _ ref held => .inl ?_
  · rw [same] at held
    exact held
  · rw [same] at held
    exact held

/-- One record changes: it keeps its checks, gains children in its home, and is given a class that is
reached. -/
theorem updateRecord {change : Record → Record}
    (acquainted : Acquainted context first opened homes start)
    (checks : (change (start.ledger.record id)).checks = (start.ledger.record id).checks)
    (children : ∀ owner, id ∈ homes owner → ∀ child ∈ (change (start.ledger.record id)).children,
      child ∈ (start.ledger.record id).children ∨ child ∈ homes owner)
    (typed : ∀ owner, id ∈ homes owner → ∀ ref,
      (change (start.ledger.record id)).typeRef = some (.generated ref) →
        (start.ledger.record id).typeRef = some (.generated ref) ∨ start.CanName owner ref) :
    Acquainted context first opened homes (start.updateRecord id change) := by
  show Acquainted context first opened homes (start.withLedger (start.ledger.update id change))
  -- Only the record that changes has other children or another class than before.
  refine acquainted.records (Nat.le_of_eq Ledger.size_update.symm) (fun other present => ?_)
    (fun owner other acts child held => ?_) fun owner other acts ref held => ?_
  · -- An update leaves the number of records and the set of each as they were.
    rw [Ledger.size_update] at present
    rw [Ledger.field_update Record.checks checks]
    exact acquainted.inRange other present
  · -- The children may change for one record only.
    rw [Ledger.record_update] at held
    split at held
    · rename_i same
      rw [same.1] at acts ⊢
      exact children owner acts child held
    · exact .inl held
  · -- The same holds for its class.
    rw [Ledger.record_update] at held
    split at held
    · rename_i same
      rw [same.1] at acts ⊢
      exact typed owner acts ref held
    · exact .inl held

/-- Something else is noted about a record. -/
theorem remark {change : Record → Record} (acquainted : Acquainted context first opened homes start)
    (same : ∀ record : Record, (change record).checks = record.checks ∧
      (change record).children = record.children ∧ (change record).typeRef = record.typeRef) :
    Acquainted context first opened homes (start.updateRecord id change) := by
  obtain ⟨checks, children, typed⟩ := same (start.ledger.record id)
  exact acquainted.updateRecord checks (fun _ _ child held => .inl (children ▸ held))
    fun _ _ ref held => .inl (typed ▸ held)

/-- A record in the home of a declaration is given a class that the declaration can name. -/
theorem give {change : Record → Record} (acquainted : Acquainted context first opened homes start)
    (acts : id ∈ homes owner) (names : start.CanName owner ref)
    (same : ∀ record : Record, (change record).checks = record.checks ∧
      (change record).children = record.children ∧ (change record).typeRef = some (.generated ref)) :
    Acquainted context first opened homes (start.updateRecord id change) := by
  obtain ⟨checks, children, typed⟩ := same (start.ledger.record id)
  refine acquainted.updateRecord checks (fun _ _ child held => .inl (children ▸ held))
    fun other acts' ref' held => .inr ?_
  -- The record has one home only.
  obtain rfl := acquainted.apart owner other id acts acts'
  rw [typed] at held
  cases held
  exact names

/-- The checks of a record change. -/
theorem updateChecks {change : CheckSet → CheckSet}
    (acquainted : Acquainted context first opened homes start) :
    Acquainted context first opened homes
      (start.withLedger (start.ledger.updateChecks id change)) := by
  refine acquainted.records (Nat.le_refl _) (fun other present => ?_) (fun _ _ _ _ held => .inl held)
    fun _ _ _ _ held => .inl held
  exact Nat.lt_of_lt_of_eq (acquainted.inRange other present) Array.size_modify.symm

/-- A record is planned. -/
theorem plan (acquainted : Acquainted context first opened homes start) (shape : Shape) :
    Acquainted context first opened homes (start.plan context owner id shape) := by
  have step : Step context owner Set.univ start (start.plan context owner id shape) :=
    .plan (Set.mem_univ id) shape
  -- A plan touches no more of a declaration than its constants and its library types.
  have kept {α : Type} (field : Declaration → α)
      (same : ∀ (declaration : Declaration) constants libraryTypes,
        field { declaration with constants, libraryTypes } = field declaration) (other : DeclarationId) :
      field ((start.plan context owner id shape).declaration other) = field (start.declaration other) := by
    rw [Model.declaration_plan_eq_update]
    exact Model.field_updateDeclaration field (same ..)
  refine acquainted.change (Nat.le_of_eq step.size_eq.1.symm) (fun other present => ?_) step.size_eq.2
    (fun other => ?_) (fun other class' member => .inl ?_) (fun other base held => .inl ?_)
    (fun other ref member => .inl ?_) (fun _ other _ child held => .inl ?_) fun _ other _ ref held => .inl ?_
  · -- Checks are written into the set that the record has.
    rw [(step.settles other).sameOrigin.checks]
    rw [step.size_eq.1] at present
    exact Nat.lt_of_lt_of_eq (acquainted.inRange other present) Array.size_modify.symm
  · -- Name, package, base and imports are none of the fields that a plan writes.
    exact ⟨step.grows other, kept Declaration.name (fun _ _ _ => rfl) other,
      kept Declaration.package (fun _ _ _ => rfl) other,
      fun base held => (kept Declaration.base (fun _ _ _ => rfl) other).trans held,
      (kept Declaration.imports (fun _ _ _ => rfl) other).symm ▸ List.Subset.refl _⟩
  · exact kept Declaration.nested (fun _ _ _ => rfl) other ▸ member
  · exact (kept Declaration.base (fun _ _ _ => rfl) other).symm.trans held
  · exact kept Declaration.interfaces (fun _ _ _ => rfl) other ▸ member
  · -- A plan leaves what lies inside a record.
    rw [← (step.settles other).children_eq]
    exact held
  · exact (Model.field_plan Record.typeRef fun _ _ _ => rfl).symm.trans held

/-- A class is nested for a record in the home of its declaration. -/
theorem nest {added : NestedClass} (acquainted : Acquainted context first opened homes start)
    (acts : added.record ∈ homes owner) (implements : ∀ ref ∈ added.interfaces, ref.owner = owner) :
    Acquainted context first opened homes (start.updateDeclaration owner fun declaration =>
      { declaration with nested := declaration.nested.push added }) := by
  refine acquainted.change (Nat.le_refl _) acquainted.inRange Model.size_updateDeclaration
    (fun other => ?_) (fun other class' member => ?_) (fun other base held => .inl ?_)
    (fun other ref member => .inl ?_) (fun _ _ _ _ held => .inl held) fun _ _ _ _ held => .inl held
  · -- Pushing a class widens its declaration.
    exact Model.rel_updateDeclaration Declaration.Widens.refl
      ⟨⟨rfl, rfl, rfl, by simp, List.prefix_rfl, List.Subset.refl _, fun numbered => numbered⟩, rfl, rfl,
        fun _ held => held, List.Subset.refl _⟩
  · -- The only class that is new to a declaration is the one that is added.
    rw [Model.declaration_updateDeclaration] at member
    split at member
    · rename_i same
      rw [same.1]
      refine (Array.mem_push.mp member).imp_right ?_
      rintro rfl
      exact ⟨acts, implements⟩
    · exact .inl member
  · -- Neither the base nor the interfaces are touched.
    exact (Model.field_updateDeclaration Declaration.base rfl).symm.trans held
  · rw [Model.field_updateDeclaration Declaration.interfaces rfl] at member
    exact member

/-- Something is noted about a declaration that is none of its bases, interfaces and nested classes. -/
theorem annotate {change : Declaration → Declaration}
    (acquainted : Acquainted context first opened homes start)
    (same : ∀ declaration : Declaration, (change declaration).nested = declaration.nested ∧
      (change declaration).base = declaration.base ∧
      (change declaration).interfaces = declaration.interfaces ∧ declaration.Widens (change declaration)) :
    Acquainted context first opened homes (start.updateDeclaration owner change) := by
  refine acquainted.relations rfl Model.size_updateDeclaration (fun id => ?_) (fun id => ?_)
    (fun id base held => .inl ?_) fun id ref member => .inl ?_
  · -- What is noted may widen a declaration, and changes none of the three fields.
    exact Model.rel_updateDeclaration Declaration.Widens.refl (same _).2.2.2
  · exact Model.field_updateDeclaration Declaration.nested (same _).1
  · exact (Model.field_updateDeclaration Declaration.base (same _).2.1).symm.trans held
  · rw [Model.field_updateDeclaration Declaration.interfaces (same _).2.2.1] at member
    exact member

/-- Something is imported. -/
theorem addImport {name : String} (acquainted : Acquainted context first opened homes start) :
    Acquainted context first opened homes (start.updateDeclaration owner (·.addImport name)) :=
  acquainted.annotate fun _ => ⟨rfl, rfl, rfl,
    .note (fun _ held => held) fun _ member => mem_addNew.mpr (.inl member)⟩

/-- A declaration is imported. -/
theorem importing (acquainted : Acquainted context first opened homes start) :
    Acquainted context first opened homes (start.importing owner other) := by
  unfold Model.importing
  split
  · exact acquainted.addImport
  · exact acquainted

/-- Which class a class extends has not changed. -/
theorem base?_eq (acquainted : Acquainted context first opened homes start) (id : DeclarationId) :
    start.base? context.tree id = first.base? context.tree id :=
  Model.base?_congr acquainted.size (fun id => (acquainted.grows id).schema)
    fun id => (acquainted.grows id).kind

end Acquainted

/-- A run that leaves all declarations acquainted, unless it fails. -/
abbrev Acquaints (context : Context) (first : Model) (opened : Set DeclarationId)
    (homes : DeclarationId → Set RecordId) (step : Modelling α) : Prop :=
  ∀ start, Acquainted context first opened homes start →
    Ends step start (fun _ last => Acquainted context first opened homes last) (fun _ => True)

namespace Acquaints

/-- One run after the other. -/
theorem bind {step : Modelling α} {next : α → Modelling β}
    (acquaints : Acquaints context first opened homes step)
    (acquaints' : ∀ result, Acquaints context first opened homes (next result)) :
    Acquaints context first opened homes (step >>= next) := by
  intro start acquainted
  rw [ends_bind]
  exact (acquaints start acquainted).mono fun result last kept => acquaints' result last kept

/-- A run for each item of a list. -/
theorem forM {items : List α} {round : α → Modelling Unit}
    (acquaints : ∀ item ∈ items, Acquaints context first opened homes (round item)) :
    Acquaints context first opened homes (items.forM round) :=
  fun _ acquainted => Ends.forM _ acquainted acquaints

end Acquaints

theorem acquaints_pure {result : α} : Acquaints context first opened homes (pure result) :=
  fun _ acquainted => acquainted

theorem acquaints_record : Acquaints context first opened homes (record id) :=
  fun _ acquainted => acquainted

theorem acquaints_ledger : Acquaints context first opened homes ledger := fun _ acquainted => acquainted

theorem acquaints_remark {change : Record → Record}
    (same : ∀ record : Record, (change record).checks = record.checks ∧
      (change record).children = record.children ∧ (change record).typeRef = record.typeRef) :
    Acquaints context first opened homes (updateRecord id change) :=
  fun _ acquainted => acquainted.remark same

theorem acquaints_plan {shape : Shape} :
    Acquaints context first opened homes (plan context owner id shape) :=
  fun _ acquainted => acquainted.plan shape

/-- An import is decided by what the declarations are called. -/
theorem ends_importing {done : Unit → Model → Prop} {failed : Model → Prop} :
    Ends (importDeclaration owner other) start done failed ↔ done () (start.importing owner other) := by
  simp only [importDeclaration, ends_bind, ends_declaration, Model.importing]
  split <;> rfl

/-- A record in the home of a declaration is settled on a class nested in it. -/
theorem acquaints_settle {index : Nat} (acts : id ∈ homes owner) :
    Acquaints context first opened homes (settle id (.nested owner index)) :=
  fun start acquainted => acquainted.give acts
    (show start.CanName owner (.nested owner index) from .refl) fun _ => ⟨rfl, rfl, rfl⟩

/-- A negation gets a shape and checks, and no class. -/
theorem acquaints_planNegation : Acquaints context first opened homes (planNegation context owner id) := by
  refine acquaints_record.bind fun held => ?_
  split
  · refine acquaints_record.bind fun negation => ?_
    split
    · exact acquaints_ledger.bind fun _ =>
        Acquaints.bind (acquaints_remark fun _ => ⟨rfl, rfl, rfl⟩) fun _ => acquaints_plan
    · exact acquaints_pure
  · exact acquaints_pure

/-- A class is nested under some name. -/
theorem acquaints_pushNested {candidate : String} {nested : String → NestedClass}
    (acts : ∀ name, (nested name).record ∈ homes owner)
    (implements : ∀ name, ∀ ref ∈ (nested name).interfaces, ref.owner = owner) :
    Acquaints context first opened homes (pushNested owner candidate nested) := by
  intro start acquainted
  refine ends_pushNested_push.mono fun _ last pushed => ?_
  obtain ⟨name, rfl⟩ := pushed
  exact acquainted.nest (acts name) (implements name)

/-- A class is nested for a record unless there is one. -/
theorem acquaints_nestedClass {kind : ClassKind} {role : Role} (acts : id ∈ homes site.owner) :
    Acquaints context first opened homes (nestedClass context site id kind role) := by
  intro start acquainted
  simp only [nestedClass, ends_bind, ends_record, ends_declaration]
  split
  · -- A class that is found needs nothing.
    exact acquainted
  · have pushed : Acquaints context first opened homes
        (pushNested site.owner (nestedName context (start.ledger.record id) role) fun name =>
          { name, parent := site.scope, kind, record := id, origin := (start.ledger.record id).schema,
            target := (start.ledger.record id).target }) :=
      acquaints_pushNested (fun _ => acts) fun _ _ member => absurd member List.not_mem_nil
    exact (pushed.bind fun _ => acquaints_pure) start acquainted

/-- A record that refers to a schema takes the class of a declaration, which is imported, or one that is
nested. -/
theorem acquaints_linkTarget (acts : id ∈ homes owner) :
    Acquaints context first opened homes (linkTarget context owner id) := by
  intro start acquainted
  simp only [linkTarget, ends_bind, ends_record, ends_ledger]
  split
  · split
    · rw [ends_bind, ends_get]
      -- The target is declared elsewhere, or it may be nested here.
      split
      · rename_i declared stands
        rw [ends_bind, ends_updateRecord, ends_importing, Model.importing_updateRecord]
        -- The class may be taken before it is imported as well as after.
        have inside : owner.index < start.declarations.size := by
          rw [acquainted.size]
          exact (acquainted.inside owner id acts).1
        have names : (start.importing owner declared).CanName owner (.declaration declared) :=
          Model.imports_importing inside
        exact acquainted.importing.give acts names fun _ => ⟨rfl, rfl, rfl⟩
      · rw [ends_bind, ends_declaration]
        split
        · rename_i index found
          -- A nested class of the same declaration is always in reach.
          exact acquainted.give acts (show start.CanName owner (.nested owner index) from .refl)
            fun _ => ⟨rfl, rfl, rfl⟩
        · exact acquainted
    · exact acquainted
  · exact acquainted

/-- A property takes a class that its base property was given, if the class of the base property is that
which is extended. -/
theorem acquaints_inheritNestedClass {baseProperty : RecordId} (noted : owner ∈ opened)
    (extends' : first.base? context.tree owner = some other) (acts : property ∈ homes owner)
    (acts' : baseProperty ∈ homes other) :
    Acquaints context first opened homes (inheritNestedClass property baseProperty) := by
  intro start acquainted
  simp only [inheritNestedClass, ends_bind, ends_record]
  split
  · rw [ends_bind, ends_record]
    split
    · rename_i further index held
      rw [ends_bind, ends_declaration]
      split
      · -- What the base can name is named over the base.
        have derives : start.Derives owner other := (acquainted.opened owner noted).trans extends'
        have names : start.CanName other (.nested further index) :=
          acquainted.typed other baseProperty acts' _ held
        exact acquainted.give acts (show start.CanName owner (.nested further index) from
          .head derives names) fun _ => ⟨rfl, rfl, rfl⟩
      · exact acquainted
    · exact acquainted
  · exact acquainted

/-- A comparison with a base property gives no class. -/
theorem acquaints_compareWithBase {baseProperty : RecordId} :
    Acquaints context first opened homes (compareWithBase owner property baseProperty) := by
  refine acquaints_record.bind fun held => acquaints_record.bind fun base => ?_
  split
  · refine Acquaints.bind (fun _ acquainted => acquainted) fun model => ?_
    exact Acquaints.bind (fun _ acquainted => acquainted.updateChecks) fun _ =>
      acquaints_remark fun _ => ⟨rfl, rfl, rfl⟩
  · exact Acquaints.bind (acquaints_remark fun _ => ⟨rfl, rfl, rfl⟩) fun _ =>
      acquaints_remark fun _ => ⟨rfl, rfl, rfl⟩

/-- Required names give no class. -/
theorem acquaints_reconcileRequired : Acquaints context first opened homes (reconcileRequired id) := by
  refine acquaints_record.bind fun held => .forM fun _ _ => acquaints_remark fun record => ?_
  rw [Record.reconciled_eq]
  exact ⟨rfl, rfl, rfl⟩

/-- An analysis that leaves all declarations acquainted for the records in their homes. -/
abbrev Analysis.Acquaints (analyse : Analysis) (context : Context) (first : Model)
    (opened : Set DeclarationId) (homes : DeclarationId → Set RecordId) : Prop :=
  ∀ site id role, id ∈ homes site.owner →
    Modelling.Acquaints context first opened homes (analyse site id role)

variable {analyse : Analysis} {base : Option RecordId}

/-- Whether a record is that of the class that a declaration extends, whose base is noted. -/
def Inherits (context : Context) (first : Model) (opened : Set DeclarationId)
    (homes : DeclarationId → Set RecordId) (owner : DeclarationId) (record : RecordId) : Prop :=
  owner ∈ opened ∧ ∃ other, first.base? context.tree owner = some other ∧ record ∈ homes other

/-- A property is analysed in the home of its class, and compared with the one in that of the base. -/
theorem acquaints_analyseProperty (inner : analyse.Acquaints context first opened homes)
    (acts : property ∈ homes site.owner)
    (inherits : ∀ record ∈ base, Inherits context first opened homes site.owner record) :
    Acquaints context first opened homes (analyseProperty analyse site base property) := by
  intro start acquainted
  simp only [analyseProperty]
  rw [ends_bind, ends_record, ends_bind, ends_ledger]
  cases found : base.bind (start.ledger.property? · ((start.ledger.record property).name.getD "")) with
  -- There is nothing to compare with, so the analysis is all.
  | none => exact ((inner _ _ _ acts).bind fun _ => acquaints_pure) start acquainted
  | some baseProperty =>
    -- The property of the base lies in the home of the base.
    obtain ⟨record, held, found⟩ := Option.bind_eq_some_iff.mp found
    obtain ⟨noted, other, extends', acts'⟩ := inherits record held
    have child : baseProperty ∈ (start.ledger.record record).children :=
      Record.mem_children.mpr (.inl (List.mem_of_find?_eq_some found))
    have inherited := acquaints_inheritNestedClass noted extends' acts
      (acquainted.closed other record acts' baseProperty child)
    exact (inherited.bind fun _ => (inner _ _ _ acts).bind fun _ => acquaints_compareWithBase)
      start acquainted

/-- An object is analysed in the home of its declaration. -/
theorem acquaints_analyseObject (inner : analyse.Acquaints context first opened homes)
    (acts : id ∈ homes site.owner)
    (inherits : ∀ record ∈ base, Inherits context first opened homes site.owner record) :
    Acquaints context first opened homes (analyseObject context analyse site id base) := by
  have closing : Acquaints context first opened homes (do
      plan context site.owner id .object
      planNegation context site.owner id
      reconcileRequired id) :=
    acquaints_plan.bind fun _ => acquaints_planNegation.bind fun _ => acquaints_reconcileRequired
  intro start acquainted
  rw [analyseObject_eq, ends_bind, ends_record]
  -- The properties lie in the record, hence in its home.
  refine Acquaints.bind (.forM fun property member => acquaints_analyseProperty inner
    (acquainted.closed _ id acts property (Record.mem_children.mpr (.inl member))) inherits)
    (fun _ => ?_) start acquainted
  intro middle acquainted
  rw [closeObject, ends_bind, ends_record]
  refine Acquaints.bind (.forM fun entry member => inner _ _ _ ?_) (fun _ => ?_) middle acquainted
  · exact acquainted.closed _ id acts _ (Record.mem_children.mpr (.inr (.inl ⟨entry, member, rfl⟩)))
  -- The value of additional properties lies in the record as well.
  intro last acquainted
  rw [ends_bind, ends_record]
  split
  · rename_i value held
    have child := acquainted.closed _ id acts value (Record.mem_children.mpr (.inr (.inr (.inl held))))
    exact ((inner _ _ _ child).bind fun _ => closing) last acquainted
  · -- Without such a value the closing follows at once.
    exact closing last acquainted

/-- A record of a decided shape is developed in the home of its declaration. -/
theorem acquaints_develop {role : Role} {shape : Shape} (inner : analyse.Acquaints context first opened homes)
    (acts : id ∈ homes site.owner) :
    Acquaints context first opened homes (develop context analyse site id role shape) := by
  unfold develop
  split
  · refine (acquaints_nestedClass acts).bind fun found => (acquaints_settle acts).bind fun shape => ?_
    split
    · -- A class that is new has its members analysed, without a base.
      have object : Acquaints context first opened homes
          (analyseObject context analyse { site with scope := some found.1 } id none) :=
        acquaints_analyseObject inner acts fun _ none => absurd none (Option.not_mem_none _)
      exact object.bind fun _ => acquaints_pure
    · exact acquaints_pure
  · -- An enum is settled on its class and has no members.
    exact (acquaints_nestedClass acts).bind fun found => acquaints_settle acts
  · refine Acquaints.bind (acquaints_remark fun _ => ⟨rfl, rfl, rfl⟩) fun _ start acquainted => ?_
    rw [ends_bind, ends_record]
    split
    · rename_i items held
      -- The items of a record lie in its home.
      have child := acquainted.closed _ id acts items
        (Record.mem_children.mpr (.inr (.inr (.inr (.inl held)))))
      exact ((inner _ _ _ child).bind fun _ => acquaints_pure) start acquainted
    · exact acquainted
  · -- A class of one's own is imported, and nothing else of it is known.
    split
    · exact Acquaints.bind (fun _ acquainted => acquainted.addImport) fun _ => acquaints_pure
    · exact acquaints_pure
  · exact acquaints_pure

/-- A record is analysed in the home of its declaration. -/
theorem acquaints_analyse {pending : List RecordId} {role : Role} (acts : id ∈ homes site.owner) :
    Acquaints context first opened homes (Modelling.analyse context pending site id role) := by
  -- The records inside are analysed with fewer pending ones, so the induction is on their number.
  induction size : pending.length using Nat.strong_induction_on generalizing pending site id role with
  | _ size ih =>
    subst size
    rw [Modelling.analyse]
    refine acquaints_record.bind fun held => ?_
    split
    · split
      · rename_i waiting
        -- What holds of fewer pending records is the hypothesis for the records inside.
        have inner : Analysis.Acquaints
            (fun site id' role => Modelling.analyse context (pending.erase id) site id' role)
            context first opened homes :=
          fun site id' role acts => ih _ (length_erase_lt waiting) acts rfl
        refine (acquaints_linkTarget acts).bind fun _ => acquaints_ledger.bind fun ledger => ?_
        refine (acquaints_develop inner acts).bind fun shape => ?_
        exact Acquaints.bind (acquaints_remark fun _ => ⟨rfl, rfl, rfl⟩) fun _ =>
          acquaints_plan.bind fun _ => acquaints_planNegation
      · exact acquaints_pure
    · exact acquaints_pure

theorem acquaints_analyseAny : (analyseAny context).Acquaints context first opened homes :=
  fun _ _ _ acts => acquaints_ledger.bind fun _ => acquaints_analyse acts

namespace Acquainted

/-- A declaration is noted to extend or to implement another one, which it imports. -/
theorem relate {change : Declaration → Declaration}
    (acquainted : Acquainted context first opened homes start)
    (inside : owner.index < first.declarations.size)
    (widens : (start.declaration owner).Widens (change (start.declaration owner)))
    (nested : (change (start.declaration owner)).nested = (start.declaration owner).nested)
    (based : ∀ base, (change (start.declaration owner)).base = some base →
      (start.declaration owner).base = some base ∨ first.base? context.tree owner = some base ∧ base = other)
    (implements : ∀ ref ∈ (change (start.declaration owner)).interfaces,
      ref ∈ (start.declaration owner).interfaces ∨ ref.owner = other) :
    Acquainted context first opened homes
      (((start.updateDeclaration owner change).updateDeclaration other (·.addDerived owner)).importing
        owner other) := by
  have size : ((start.updateDeclaration owner change).updateDeclaration other
      (·.addDerived owner)).declarations.size = first.declarations.size :=
    (Model.size_updateDeclaration.trans Model.size_updateDeclaration).trans acquainted.size
  -- Whatever was changed before, the import comes last.
  have imported : (((start.updateDeclaration owner change).updateDeclaration other
      (·.addDerived owner)).importing owner other).Imports owner other :=
    Model.imports_importing (size ▸ inside)
  -- Of what was changed in the first place, the rest leaves all but the derived classes and the imports.
  have kept {α : Type} (field : Declaration → α)
      (same : ∀ (declaration : Declaration) derived imports,
        field { declaration with derived, imports } = field declaration) (id : DeclarationId) :
      field ((((start.updateDeclaration owner change).updateDeclaration other
        (·.addDerived owner)).importing owner other).declaration id) =
      field (if id = owner ∧ owner.index < start.declarations.size then change (start.declaration owner)
        else start.declaration id) := by
    rw [Model.field_importing field fun _ _ => same .., Model.field_updateDeclaration field (same ..),
      Model.declaration_updateDeclaration]
  refine acquainted.relations Model.ledger_importing
    (Model.size_importing.trans (size.trans acquainted.size.symm)) (fun id => ?_) (fun id => ?_)
    (fun id base held => ?_) fun id ref member => ?_
  · -- The first change widens its declaration, and a derived class or an import only adds to one.
    have noted : (start.declaration id).Widens ((start.updateDeclaration owner change).declaration id) :=
      Model.rel_updateDeclaration Declaration.Widens.refl widens
    have derived : Declaration.Widens _ (((start.updateDeclaration owner change).updateDeclaration other
        (·.addDerived owner)).declaration id) :=
      Model.rel_updateDeclaration Declaration.Widens.refl
        (.note (fun _ held => held) (List.Subset.refl _))
    exact (noted.trans derived).trans (Model.widens_importing id)
  · -- The other two changes leave the nested classes alone.
    rw [kept Declaration.nested (fun _ _ _ => rfl) id]
    split
    · rename_i same
      rw [nested, same.1]
    · rfl
  · -- The new base is the other declaration, which is imported in the end.
    rw [Model.Derives, kept Declaration.base (fun _ _ _ => rfl) id] at held
    split at held
    · rename_i same
      rw [same.1]
      refine (based base held).imp_right fun new => ?_
      rw [new.2]
      exact ⟨new.2 ▸ new.1, imported⟩
    · exact .inl held
  · -- So is the new interface.
    rw [kept Declaration.interfaces (fun _ _ _ => rfl) id] at member
    split at member
    · rename_i same
      rw [same.1]
      refine (implements ref member).imp_right fun new => ?_
      rw [new]
      exact imported
    · exact .inl member

/-- A class is noted to extend its base, and imports it. -/
theorem extend (acquainted : Acquainted context first opened homes start)
    (inside : owner.index < first.declarations.size)
    (extends' : first.base? context.tree owner = some other) :
    Acquainted context first opened homes ((start.based owner other).importing owner other) := by
  refine acquainted.relate inside (.note (fun held noted => ?_) (List.Subset.refl _)) rfl
    (fun base held => .inr ?_) fun ref member => .inl member
  · -- A base that was noted before is the same one.
    exact extends'.symm.trans (acquainted.based owner held noted).1
  · cases held
    exact ⟨extends', rfl⟩

/-- A class is noted to implement another one, and imports it. -/
theorem implement (acquainted : Acquainted context first opened homes start)
    (inside : owner.index < first.declarations.size) :
    Acquainted context first opened homes
      ((start.implemented owner other).importing owner other) := by
  refine acquainted.relate inside (.note (fun _ held => held) (List.Subset.refl _)) rfl
    (fun base held => .inl held) fun ref member => (mem_addNew.mp member).imp_right ?_
  rintro rfl
  rfl

/-- The base of a declaration has been noted. -/
theorem insert (acquainted : Acquainted context first opened homes start)
    (noted : (start.declaration owner).base = first.base? context.tree owner) :
    Acquainted context first (insert owner opened) homes start :=
  { acquainted with
    opened := fun id member => by
      rcases Set.mem_insert_iff.mp member with rfl | earlier
      · exact noted
      · exact acquainted.opened id earlier }

end Acquainted

/-- A class is opened: its base is noted, and imported. -/
theorem ends_openClass_acquainted (acquainted : Acquainted context first opened homes start)
    (inside : owner.index < first.declarations.size) :
    Ends (openClass context owner id) start
      (fun base last => Acquainted context first (insert owner opened) homes last ∧
        ∀ record ∈ base, Inherits context first (insert owner opened) homes owner record)
      (fun _ => True) := by
  rw [openClass, ends_bind, ends_get, acquainted.base?_eq owner]
  cases extends' : first.base? context.tree owner with
  | none =>
    -- It is noted nowhere that the class has a base, and it has none.
    refine ⟨(acquainted.insert ?_).remark fun _ => ⟨rfl, rfl, rfl⟩,
      fun _ none => absurd none (Option.not_mem_none _)⟩
    -- A base would be the one that the class extends.
    rw [extends', Option.eq_none_iff_forall_ne_some]
    intro base held
    have stands := (acquainted.based owner base held).1
    rw [extends'] at stands
    cases stands
  | some other =>
    simp only [ends_bind, ends_updateDeclaration, ends_importing, ends_updateRecord, ends_get, ends_pure,
      Option.map_some, Model.declaration_updateRecord]
    have extended := acquainted.extend inside extends'
    have noted : (((start.based owner other).importing owner other).declaration owner).base =
        first.base? context.tree owner := by
      rw [Model.field_importing Declaration.base fun _ _ => rfl, Model.based,
        Model.field_updateDeclaration Declaration.base rfl, Model.declaration_updateDeclaration,
        if_pos ⟨rfl, by rwa [acquainted.size]⟩, extends']
    have opened' := extended.insert noted
    -- The record of the base lies in the home of the base, from which the class inherits.
    have root : (((start.based owner other).importing owner other).declaration other).record ∈
        homes other := by
      rw [(opened'.grows other).record]
      exact opened'.rooted other (Model.inside_of_base? extends')
    refine ⟨opened'.remark fun _ => ⟨rfl, rfl, rfl⟩, fun record held => ?_⟩
    rw [← Option.some_inj.mp held]
    exact ⟨Set.mem_insert owner opened, other, extends', root⟩

/-- A declaration is analysed. -/
theorem ends_analyseDeclaration_acquainted (acquainted : Acquainted context first opened homes start)
    (inside : owner.index < first.declarations.size) :
    Ends (analyseDeclaration context owner) start
      (fun _ last => ∃ opened, Acquainted context first opened homes last) (fun _ => True) := by
  have root : (start.declaration owner).record ∈ homes owner := by
    rw [(acquainted.grows owner).record]
    exact acquainted.rooted owner inside
  rw [analyseDeclaration, ends_bind, ends_declaration]
  split
  · -- Enumerations and interfaces only get their shape.
    exact ⟨opened, acquainted.remark fun _ => ⟨rfl, rfl, rfl⟩⟩
  · exact ⟨opened, acquainted.remark fun _ => ⟨rfl, rfl, rfl⟩⟩
  · rw [analyseClass_eq, ends_bind, ends_declaration, ends_bind]
    refine (ends_openClass_acquainted acquainted inside).mono fun base middle opened' => ?_
    exact (acquaints_analyseObject acquaints_analyseAny root opened'.2 middle opened'.1).mono
      fun _ _ last => ⟨_, last⟩

/-- A declaration is analysed after its bases. -/
theorem ends_resolveMembers_acquainted (acquainted : Acquainted context first opened homes start)
    (inside : owner.index < first.declarations.size) :
    Ends (resolveMembers context owner) start
      (fun _ last => ∃ opened, Acquainted context first opened homes last) (fun _ => True) := by
  rw [resolveMembers, ends_bind, ends_get]
  generalize listed : (owner :: start.allBases context.tree owner).takeWhile
    (fun id => !(start.declaration id).isAnalysed) = fresh
  -- All classes on the way are declared.
  have declared : ∀ other ∈ fresh, other.index < first.declarations.size := by
    intro other member
    rw [← listed] at member
    rcases List.mem_cons.mp (List.takeWhile_subset _ member) with rfl | met
    · exact inside
    · obtain ⟨k, -, -, reached⟩ := Model.mem_bases.mp met
      rw [← acquainted.size] at inside ⊢
      exact Model.inside_of_baseAfter inside reached
  -- The marks say nothing about what classes name.
  have marked : Acquaints context first opened homes (fresh.forM fun id =>
      updateDeclaration id fun declaration => { declaration with isAnalysed := true }) :=
    .forM fun id _ start acquainted => acquainted.annotate fun _ => ⟨rfl, rfl, rfl,
      ⟨⟨rfl, rfl, rfl, List.prefix_rfl, List.prefix_rfl, List.Subset.refl _, fun numbered => numbered⟩,
        rfl, rfl, fun _ held => held, List.Subset.refl _⟩⟩
  rw [ends_bind]
  refine (marked start acquainted).mono fun _ middle acquainted => ?_
  -- Each class is analysed from whatever was opened by then.
  refine Ends.forM (fun last => ∃ opened, Acquainted context first opened homes last)
    ⟨opened, acquainted⟩ fun other member state reached => ?_
  obtain ⟨opened, acquainted⟩ := reached
  exact ends_analyseDeclaration_acquainted acquainted (declared other (List.mem_reverse.mp member))

/-! Branches: copies join the home of the declaration that they are made in. -/

/-- A state that is acquainted with homes that may have grown. -/
def Further (context : Context) (first : Model) (opened : Set DeclarationId)
    (homes : DeclarationId → Set RecordId) (model : Model) : Prop :=
  ∃ homes', (∀ owner, homes owner ⊆ homes' owner) ∧ Acquainted context first opened homes' model

theorem Further.of_acquainted (acquainted : Acquainted context first opened homes start) :
    Further context first opened homes start := ⟨homes, fun _ => Set.Subset.rfl, acquainted⟩

/-- What has grown may grow again. -/
theorem Further.trans {homes' : DeclarationId → Set RecordId}
    (larger : ∀ owner, homes owner ⊆ homes' owner) (further : Further context first opened homes' last) :
    Further context first opened homes last := by
  obtain ⟨homes'', larger', acquainted⟩ := further
  exact ⟨homes'', fun owner => (larger owner).trans (larger' owner), acquainted⟩

/-- The homes of all declarations, with the records behind those that were there in one of them. -/
def joined (homes : DeclarationId → Set RecordId) (owner : DeclarationId) (before after : Ledger) :
    DeclarationId → Set RecordId :=
  fun other => homes other ∪ {id | other = owner ∧ before.size ≤ id.index ∧ id.index < after.size}

/-- A variant of a record and its copies join the home of the record. -/
theorem Acquainted.vary {container : RecordId} {origin : Option SchemaId} {copies : List RecordId}
    {ledger : Ledger} (acquainted : Acquainted context first opened homes start)
    (acts : container ∈ homes owner) (varies : start.ledger.Varies container origin copies ledger) :
    Acquainted context first opened (joined homes owner start.ledger ledger)
      (start.withLedger ledger) := by
  -- A home holds records that were there.
  have old {other : DeclarationId} {id : RecordId} (acts : id ∈ homes other) :
      id.index < start.ledger.size := (acquainted.inside other id acts).2
  -- What is copied lies in the home, and so does all that lies inside it.
  have inHome {source : RecordId} (from' : source = container ∨
      source ∈ (start.ledger.record container).properties) : source ∈ homes owner := by
    rcases from' with rfl | member
    · exact acts
    · exact acquainted.closed owner container acts source (Record.mem_children.mpr (.inl member))
  refine { acquainted with
    inRange := varies.inRange acquainted.inRange
    inside := fun other id joined => ?_
    apart := fun one other id joined joined' => ?_
    rooted := fun other inside => .inl (acquainted.rooted other inside)
    closed := fun other id joined child held => ?_
    housed := fun other nested member => .inl (acquainted.housed other nested member)
    typed := fun other id joined ref held => ?_ }
  · -- What joined the home is present in the larger ledger.
    rcases joined with acts' | ⟨rfl, -, present⟩
    · exact ⟨(acquainted.inside other id acts').1, Nat.lt_of_lt_of_le (old acts') varies.size_le⟩
    · exact ⟨(acquainted.inside other container acts).1, present⟩
  · -- Homes were apart, and what has joined is in one of them only.
    rcases joined with acts' | ⟨rfl, late, -⟩ <;> rcases joined' with acts'' | ⟨rfl, late', -⟩
    · exact acquainted.apart one other id acts' acts''
    · exact absurd (old acts') (Nat.not_lt.mpr late')
    · exact absurd (old acts'') (Nat.not_lt.mpr late)
    · rfl
  · -- A record from before has the children it had; a new one has copies, or what its source has.
    rcases joined with acts' | ⟨rfl, late, present⟩
    · rw [Model.ledger_withLedger, varies.record id (old acts')] at held
      exact .inl (acquainted.closed other id acts' child held)
    · rcases varies.mem_children (Nat.not_lt.mpr late) held with copied | ⟨source, from', held⟩
      · obtain ⟨source, -, repeats⟩ := varies.repeats child copied
        exact .inr ⟨rfl, repeats.late, repeats.present⟩
      · exact .inl (acquainted.closed other source (inHome from') child held)
  · -- A variant has no class yet, and a copy has the class of its source.
    rcases joined with acts' | ⟨rfl, late, present⟩
    · rw [Model.ledger_withLedger, varies.record id (old acts')] at held
      exact acquainted.typed other id acts' ref held
    · rcases varies.cases (Nat.not_lt.mpr late) present with rfl | ⟨source, member, repeats⟩
      · rw [Model.ledger_withLedger, varies.record_variant] at held
        cases held
      · rw [Model.ledger_withLedger, repeats.record] at held
        exact acquainted.typed other source (inHome (.inr member)) ref held

/-- A variant class is nested for a record in the home of its declaration, and implements a class of this
declaration. -/
theorem acquaints_pushVariant {scope : Option Nat} {branch : RecordId} {implements : ClassRef}
    (acts : id ∈ homes owner) (own : implements.owner = owner) :
    Acquaints context first opened homes (pushVariant context owner scope id branch implements) := by
  refine acquaints_record.bind fun _ => acquaints_pushNested (fun _ => acts) fun _ ref member => ?_
  rw [List.mem_singleton.mp member]
  exact own

/-- A property of a branch joins a variant in the same home. -/
theorem acquaints_joinProperty {variant : RecordId} (acts : property ∈ homes site.owner)
    (acts' : variant ∈ homes site.owner) :
    Acquaints context first opened homes (joinProperty context site variant property) := by
  refine acquaints_record.bind fun held => (acquaints_analyseAny _ _ _ acts).bind fun _ =>
    acquaints_ledger.bind fun ledger => ?_
  split
  · -- Where the name is known, only checks are added.
    exact fun _ acquainted => acquainted.updateChecks
  · intro start acquainted
    -- The variant belongs to no other home.
    refine acquainted.updateRecord rfl (fun other acts'' child held => ?_) fun _ _ _ held => .inl held
    obtain rfl := acquainted.apart site.owner other variant acts' acts''
    -- Among the records inside, only the property is new.
    rw [Record.mem_children] at held
    rcases held with held | held
    · rcases List.mem_append.mp held with held | held
      · exact .inl (Record.mem_children.mpr (.inl held))
      · rw [List.mem_singleton.mp held]
        exact .inr acts
    · exact .inl (Record.mem_children.mpr (.inr held))

theorem acquaints_joinRequired {variant : RecordId} {already : List String} {name : String} :
    Acquaints context first opened homes (joinRequired variant already name) := by
  have added : Acquaints context first opened homes (updateRecord variant (·.addRequired name)) :=
    acquaints_remark fun _ => ⟨rfl, rfl, rfl⟩
  unfold joinRequired
  -- Requiredness and nullability are no matter of names.
  split
  · refine acquaints_ledger.bind fun ledger => ?_
    split
    · exact Acquaints.bind (acquaints_remark fun _ => ⟨rfl, rfl, rfl⟩) fun _ => added
    · exact added
  · exact added

/-- What comes of a variant when it was copied. -/
theorem acquaints_variant {scope : Option Nat} {variant container branch : RecordId} {implements : ClassRef}
    (acts : variant ∈ homes site.owner) (acts' : branch ∈ homes site.owner)
    (own : implements.owner = site.owner) :
    Acquaints context first opened homes (do
      let index ← pushVariant context site.owner scope variant branch implements
      let _ ← settle variant (.nested site.owner index)
      (← record branch).properties.forM (joinProperty context { site with scope := some index } variant)
      let already := (← record container).required
      (← record branch).required.forM (joinRequired variant already)
      plan context site.owner variant .object
      reconcileRequired variant) := by
  refine (acquaints_pushVariant acts own).bind fun index => (acquaints_settle acts).bind fun _ => ?_
  intro start acquainted
  rw [ends_bind, ends_record]
  refine Acquaints.bind (.forM fun property member => ?_) (fun _ => ?_) start acquainted
  · -- The property lies in the branch, and so in the same home.
    exact acquaints_joinProperty
      (acquainted.closed _ branch acts' property (Record.mem_children.mpr (.inl member))) acts
  · refine acquaints_record.bind fun held => acquaints_record.bind fun branch => ?_
    exact (Acquaints.forM fun _ _ => acquaints_joinRequired).bind fun _ =>
      acquaints_plan.bind fun _ => acquaints_reconcileRequired

/-- A variant is made in the home of its class. -/
theorem ends_addVariant_acquainted {container branch : RecordId}
    (acquainted : Acquainted context first opened homes start) (acts : container ∈ homes site.owner)
    (acts' : branch ∈ homes site.owner) :
    Ends (addVariant context site container branch) start
      (fun _ last => Further context first opened homes last) (fun _ => True) := by
  rw [addVariant, ends_bind, ends_record, ends_bind, ends_declaration]
  split
  · -- All that is copied has joined before.
    have inside (property : RecordId) (member : property ∈ (start.ledger.record container).properties) :
        property.index < start.ledger.size :=
      (acquainted.inside site.owner property
        (acquainted.closed _ container acts property (Record.mem_children.mpr (.inl member)))).2
    rw [ends_bind]
    refine (ends_copyForVariant acquainted.inRange inside).mono fun variant middle copied => ?_
    obtain ⟨rfl, copies, ledger, rfl, varies⟩ := copied
    -- The homes only grow by the records that are made for the variant.
    have larger (other : DeclarationId) :
        homes other ⊆ joined homes site.owner start.ledger ledger other := fun _ => .inl
    have variant : ⟨start.ledger.size⟩ ∈ joined homes site.owner start.ledger ledger site.owner :=
      .inr ⟨rfl, Nat.le_refl _, varies.variant.present⟩
    refine (acquaints_variant variant (larger _ acts') ?_ _ (acquainted.vary acts varies)).mono
      fun _ last acquainted => ⟨_, larger, acquainted⟩
    -- The variant implements its class, which is one of the same declaration.
    split <;> rfl
  · exact .of_acquainted acquainted

/-- The variants of a class are made in its home. -/
theorem ends_addVariants_acquainted {container : RecordId}
    (acquainted : Acquainted context first opened homes start) (acts : container ∈ homes site.owner) :
    Ends (addVariants context site container) start
      (fun _ last => Further context first opened homes last) (fun _ => True) := by
  rw [addVariants, ends_bind, ends_record]
  refine Ends.forM _ (.of_acquainted acquainted) fun branch member middle further => ?_
  obtain ⟨homes', larger, acquainted'⟩ := further
  -- The branch lies in the container, and was in the home from the beginning.
  have acts' := acquainted.closed _ container acts branch
    (Record.mem_children.mpr (.inr (.inr (.inr (.inr (.inl member))))))
  exact (ends_addVariant_acquainted acquainted' (larger _ acts) (larger _ acts')).mono
    fun _ _ further => further.trans larger

/-- The variants of nested classes are made in the home of their declaration. -/
theorem ends_addNestedVariants_acquainted {steps index : Nat}
    (acquainted : Acquainted context first opened homes start) :
    Ends (addNestedVariants context owner steps index) start
      (fun _ last => Further context first opened homes last) (fun _ => True) := by
  -- The homes grow from class to class, so the induction is for all of them.
  induction steps generalizing index start homes with
  | zero => exact .of_acquainted acquainted
  | succ steps ih =>
    rw [addNestedVariants, ends_bind, ends_declaration]
    split
    · exact .of_acquainted acquainted
    · rename_i nested there
      split
      · -- A nested class is made from a record in the home.
        have acts := acquainted.housed owner nested (Array.mem_of_getElem? there)
        rw [ends_bind]
        have added : Ends (addVariants context ⟨owner, some index⟩ nested.record) start
            (fun _ last => Further context first opened homes last) (fun _ => True) :=
          ends_addVariants_acquainted acquainted acts
        refine added.mono fun _ middle further => ?_
        obtain ⟨homes', larger, acquainted'⟩ := further
        exact (ih acquainted').mono fun _ _ further => further.trans larger
      · exact ih acquainted

/-- A branch of a union is resolved: a declared class imports the union that it implements. -/
theorem acquaints_resolveBranch {branch : RecordId} (acts : branch ∈ homes owner) :
    Acquaints context first opened homes (resolveBranch context owner branch) := by
  intro start acquainted
  rw [resolveBranch, ends_bind, ends_record, ends_bind, ends_get]
  cases stands : (start.ledger.record branch).schema.bind (start.declarationFor? context.tree) with
  | some implementor =>
    dsimp only
    split
    · -- A declared class implements the union and imports it at once.
      obtain ⟨schema, -, stands⟩ := Option.bind_eq_some_iff.mp stands
      have inside : implementor.index < first.declarations.size := by
        rw [← acquainted.size]
        exact Model.inside_of_declarationAlong? stands
      simp only [ends_bind, ends_updateDeclaration, ends_importing]
      exact acquainted.implement inside
    · exact acquainted
  | none =>
    -- Otherwise a class may be nested for the branch, in the same home.
    rw [ends_bind, ends_declaration, ends_bind, ends_ledger]
    split
    · have object (index : Nat) : Acquaints context first opened homes
          (analyseObject context (analyseAny context) ⟨owner, some index⟩ branch none) :=
        acquaints_analyseObject acquaints_analyseAny acts fun _ none => absurd none (Option.not_mem_none _)
      exact ((acquaints_pushVariant acts rfl).bind fun index => (acquaints_settle acts).bind fun _ =>
        object index) start acquainted
    · exact acquainted

/-- The branches of a declaration and of the classes nested in it are resolved. -/
theorem ends_resolveVariants_acquainted (acquainted : Acquainted context first opened homes start)
    (inside : owner.index < first.declarations.size) :
    Ends (resolveVariants context owner) start
      (fun _ last => Further context first opened homes last) (fun _ => True) := by
  have root : (start.declaration owner).record ∈ homes owner := by
    rw [(acquainted.grows owner).record]
    exact acquainted.rooted owner inside
  have marked : Acquaints context first opened homes (updateDeclaration owner fun declaration =>
      { declaration with hasVariants := true }) :=
    fun start acquainted => acquainted.annotate fun _ => ⟨rfl, rfl, rfl,
      ⟨⟨rfl, rfl, rfl, List.prefix_rfl, List.prefix_rfl, List.Subset.refl _, fun numbered => numbered⟩,
        rfl, rfl, fun _ held => held, List.Subset.refl _⟩⟩
  -- The classes nested in the declaration come last.
  have nested {middle : Model} (further : Further context first opened homes middle) :
      Ends (do
        let bound := (← declaration owner).nested.size + context.tree.schemas.size + (← ledger).size
        addNestedVariants context owner (bound + 1) 0) middle
        (fun _ last => Further context first opened homes last) (fun _ => True) := by
    obtain ⟨homes', larger, acquainted'⟩ := further
    rw [ends_bind, ends_declaration, ends_bind, ends_ledger]
    exact (ends_addNestedVariants_acquainted acquainted').mono fun _ _ further => further.trans larger
  rw [resolveVariants, ends_bind, ends_declaration]
  split
  · rw [ends_bind]
    -- The mark is set, and with what follows the homes may grow.
    refine (marked start acquainted).mono fun _ middle acquainted => ?_
    split
    · split
      · rw [ends_bind, ends_record, ends_bind]
        have branches : Acquaints context first opened homes
            ((middle.ledger.record (start.declaration owner).record).oneOf.forM
              (resolveBranch context owner)) :=
          .forM fun branch member => acquaints_resolveBranch (acquainted.closed owner _ root branch
            (Record.mem_children.mpr (.inr (.inr (.inr (.inr (.inl member)))))))
        exact (branches middle acquainted).mono fun _ _ acquainted => nested (.of_acquainted acquainted)
      · -- Any other declaration gets variants of its own record.
        have added : Ends (addVariants context ⟨owner, none⟩ (start.declaration owner).record) middle
            (fun _ last => Further context first opened homes last) (fun _ => True) :=
          ends_addVariants_acquainted acquainted root
        rw [ends_bind]
        exact added.mono fun _ _ further => nested further
    · exact .of_acquainted acquainted
  · exact .of_acquainted acquainted

/-- The homes with which a resolution begins: the records that were surveyed for a declaration. -/
def surveyedHomes (first : Model) (owner : DeclarationId) : Set RecordId :=
  {id | owner.index < first.declarations.size ∧ id ∈ first.realm owner}

/-- What is declared is acquainted. -/
theorem Acquainted.of_declared (declared : first.Declared) :
    Acquainted context first ∅ (surveyedHomes first) first where
  inRange id present := declared.sound.owned.present id present
  size := rfl
  grows _ := .refl _
  inside owner id acts := ⟨acts.1, (declared.closed_scope acts.1).present id acts.2⟩
  apart owner other id acts acts' := declared.apart owner other acts.1 acts'.1
    (declared.sound.scope_disjoint (declared.root owner acts.1).2 (declared.root other acts'.1).2
      acts.2 acts'.2)
  rooted _ inside := ⟨inside, Ledger.mem_scope_self⟩
  closed _ id acts child held := ⟨acts.1, (declared.closed_scope acts.1).inside id acts.2 child held⟩
  -- Nothing is nested, linked or typed yet.
  housed owner nested member := by
    -- Raw declarations have no nested classes.
    rw [(declared.raw owner).nested] at member
    exact absurd member (Array.not_mem_empty _)
  variants owner nested member := by
    rw [(declared.raw owner).nested] at member
    exact absurd member (Array.not_mem_empty _)
  opened id member := absurd member (Set.notMem_empty id)
  based id base held := by
    -- Nor have they a base.
    rw [Model.Derives, (declared.raw id).base] at held
    cases held
  implements id ref member := by
    rw [(declared.raw id).interfaces] at member
    exact absurd member List.not_mem_nil
  typed owner id _ ref held := by
    rw [(declared.sound.raw id).typeRef] at held
    cases held

/-- A resolution leaves all declarations acquainted. -/
theorem ends_resolve_acquainted (declared : first.Declared) :
    Ends (resolve context) first (fun _ last => ∃ opened homes, Acquainted context first opened homes last)
      (fun _ => True) := by
  rw [resolve, ends_bind, ends_get]
  split
  · -- A circle ends the run with a failure.
    trivial
  · rw [ends_bind]
    -- First the members: more and more bases are noted.
    have members : Ends (first.ids.forM (resolveMembers context)) first
        (fun _ last => ∃ opened, Acquainted context first opened (surveyedHomes first) last)
        (fun _ => True) := by
      refine Ends.forM _ ⟨∅, .of_declared declared⟩ fun owner member state reached => ?_
      obtain ⟨opened, acquainted⟩ := reached
      exact ends_resolveMembers_acquainted acquainted (Model.mem_ids.mp member)
    refine members.mono fun _ middle reached => ?_
    -- Then the branches: the homes grow.
    refine Ends.forM (fun last => ∃ opened homes, Acquainted context first opened homes last) ?_
      fun owner member state reached => ?_
    · -- The homes at the start are those of the survey.
      obtain ⟨opened, acquainted⟩ := reached
      exact ⟨opened, _, acquainted⟩
    · obtain ⟨opened, homes, acquainted⟩ := reached
      refine (ends_resolveVariants_acquainted acquainted (Model.mem_ids.mp member)).mono fun _ _ further => ?_
      obtain ⟨homes', -, acquainted'⟩ := further
      exact ⟨opened, homes', acquainted'⟩

end Modelling

/-- A declaration that imports what it names: its base, its interfaces, and the classes of the values that
it and its nested classes hold, except for those nested in a class further up than its base. -/
structure Model.ImportsNames (model : Model) (owner : DeclarationId) : Prop where
  base : ∀ base, model.Derives owner base → model.Imports owner base
  interfaces : ∀ ref ∈ (model.declaration owner).interfaces, model.Imports owner ref.owner
  nested : ∀ nested ∈ (model.declaration owner).nested, ∀ ref ∈ nested.interfaces, ref.owner = owner
  values : ∀ made, model.Makes owner .concrete made → ∀ value, model.Values made value → ∀ ref,
    (model.ledger.record value).shape = some (.reference (.generated ref)) →
      model.Imports owner ref.owner ∨ ∃ base other index, ref = .nested other index ∧
        model.Derives owner base ∧ Relation.TransGen model.Derives base other

namespace Modelling

variable {context : Context} {first last : Model} {opened : Set DeclarationId}
variable {homes : DeclarationId → Set RecordId} {owner : DeclarationId}

/-- A declaration imports what it names if all are acquainted. -/
theorem Acquainted.importsNames (acquainted : Acquainted context first opened homes last)
    (inside : owner.index < first.declarations.size)
    (shaped : ∀ id ref, (last.ledger.record id).shape = some (.reference (.generated ref)) →
      (last.ledger.record id).typeRef = some (.generated ref)) : last.ImportsNames owner where
  base base derives := (acquainted.based owner base derives).2
  interfaces := acquainted.implements owner
  nested := acquainted.variants owner
  values made makes value values ref shape := by
    -- The class that names the value has its record in the home, as have all records below it.
    have belongs : made ∈ homes owner := by
      generalize kind : ClassKind.concrete = kind at makes
      cases makes with
      | declared =>
        rw [(acquainted.grows owner).record]
        exact acquainted.rooted owner inside
      | nested member => exact acquainted.housed owner _ member
    -- A shape that refers to a class comes from the type of the record.
    have names := acquainted.typed owner value (values.mem belongs (acquainted.closed owner)) ref
      (shaped value ref shape)
    cases ref with
    | declaration other => exact .inl names
    | nested other index =>
      -- The class is nested in the declaration itself, in its base, or further up.
      rcases Relation.ReflTransGen.cases_head names with rfl | ⟨base, derives, further⟩
      · exact .inl Model.imports_self
      · rcases Relation.reflTransGen_iff_eq_or_transGen.mp further with rfl | beyond
        · exact .inl (acquainted.based owner _ derives).2
        · exact .inr ⟨base, other, index, rfl, derives, beyond⟩

/-- Every declaration of a run that succeeds imports the classes of other packages that it names, but for
those that it inherits from further up than its base. -/
theorem imports_build {roots : List RootSchema} :
    Ends (build context roots) {}
      (fun _ last => ∀ owner : DeclarationId, owner.index < last.declarations.size →
        last.ImportsNames owner) (fun _ => True) := by
  have acquainted : Ends (build context roots) {}
      (fun _ last => ∃ first opened homes, Acquainted context first opened homes last)
      (fun _ => True) := by
    -- The run declares first, and the resolution starts from there.
    rw [build, ends_bind]
    exact declared_roots.mono fun _ first declared =>
      (ends_resolve_acquainted declared).mono fun _ _ reached => ⟨first, reached⟩
  refine (acquainted.and estates_build).imp (fun _ last reached => ?_) fun _ _ => trivial
  obtain ⟨⟨first, opened, homes, acquainted⟩, _, _, estates⟩ := reached
  exact fun owner inside => acquainted.importsNames (acquainted.size ▸ inside) estates.sane.shaped

end Modelling

end SchemaClasses
