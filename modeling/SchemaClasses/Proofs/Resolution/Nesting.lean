import Mathlib.Data.Set.Card
import SchemaClasses.Proofs.Identifier
import SchemaClasses.Proofs.Resolution.Kinship
import SchemaClasses.Proofs.Resolution.Scopes

/-! The classes nested in declarations, at every point of a resolution and however it ends: each lies in
an earlier one, and none is there twice. So there are no more of them than records of the class. -/

namespace SchemaClasses

/-- Whether the classes nested in a declaration form a forest without repetitions: each lies in an
earlier one, classes beside each other have different names, and no two were made for the same schema
or are reached through the same reference. -/
structure Declaration.Orderly (declaration : Declaration) : Prop where
  parent : ∀ (index : Nat) (nested : NestedClass), declaration.nested[index]? = some nested →
    ∀ parent, nested.parent = some parent → parent < index
  names : declaration.nested.toList.Pairwise fun a b => a.parent = b.parent → a.name ≠ b.name
  origins : declaration.nested.toList.Pairwise fun a b => a.origin ≠ b.origin
  targets : declaration.nested.toList.Pairwise fun a b => a.target.isSome → a.target ≠ b.target
  made : ∀ nested ∈ declaration.nested, nested.origin.isSome
  identifiers : ∀ nested ∈ declaration.nested, isIdentifier nested.name = true

/-- Whether a class may join those nested in a declaration. -/
structure Declaration.Admits (declaration : Declaration) (added : NestedClass) : Prop where
  parent : ∀ parent, added.parent = some parent → parent < declaration.nested.size
  name : ∀ nested ∈ declaration.nested, nested.parent = added.parent → nested.name ≠ added.name
  origin : ∀ nested ∈ declaration.nested, nested.origin ≠ added.origin
  target : ∀ nested ∈ declaration.nested, nested.target.isSome → nested.target ≠ added.target
  made : added.origin.isSome
  identifier : isIdentifier added.name = true

namespace Declaration

variable {declaration : Declaration} {added : NestedClass}

/-- Without nested classes there is nothing out of order. -/
theorem orderly_of_nested (none : declaration.nested = #[]) : declaration.Orderly := by
  constructor <;> simp [none]

/-- Whether nested classes are in order depends on nothing else. -/
theorem Orderly.congr {other : Declaration} (orderly : declaration.Orderly)
    (same : other.nested = declaration.nested) : other.Orderly where
  parent := same ▸ orderly.parent
  names := same ▸ orderly.names
  origins := same ▸ orderly.origins
  targets := same ▸ orderly.targets
  made := same ▸ orderly.made
  identifiers := same ▸ orderly.identifiers

/-- Classes that are in order were so before later ones joined. -/
theorem Orderly.earlier {before : Declaration} (orderly : declaration.Orderly)
    (grows : before.nested.toList <+: declaration.nested.toList) : before.Orderly where
  parent index nested there := by
    -- The class was already there under the same number.
    rw [← Array.getElem?_toList] at there
    refine orderly.parent index nested ?_
    obtain ⟨inside, rfl⟩ := List.getElem?_eq_some_iff.mp there
    rw [← Array.getElem?_toList]
    exact List.prefix_iff_getElem?.mp grows index inside
  names := orderly.names.sublist grows.sublist
  origins := orderly.origins.sublist grows.sublist
  targets := orderly.targets.sublist grows.sublist
  made nested member :=
    orderly.made nested (Array.mem_toList_iff.mp (grows.subset (Array.mem_toList_iff.mpr member)))
  identifiers nested member :=
    orderly.identifiers nested (Array.mem_toList_iff.mp (grows.subset (Array.mem_toList_iff.mpr member)))

/-- A class that joins comes behind all others. -/
theorem pairwise_push {related : NestedClass → NestedClass → Prop}
    (earlier : declaration.nested.toList.Pairwise related)
    (new : ∀ nested ∈ declaration.nested, related nested added) :
    (declaration.nested.push added).toList.Pairwise related := by
  -- Only pairs with the class that joins are new.
  rw [Array.toList_push]
  refine List.pairwise_append.mpr ⟨earlier, List.pairwise_singleton _ _, fun nested member other single => ?_⟩
  rw [List.mem_singleton.mp single]
  exact new nested (Array.mem_toList_iff.mp member)

/-- A class that may join leaves the nested classes in order. -/
theorem Orderly.push (orderly : declaration.Orderly) (admits : declaration.Admits added) :
    { declaration with nested := declaration.nested.push added }.Orderly where
  parent index nested there parent outer := by
    -- The class that joins is the last one, and its parent is there before it.
    rw [Array.getElem?_push] at there
    split at there
    · rename_i last
      cases there
      exact last ▸ admits.parent parent outer
    · exact orderly.parent index nested there parent outer
  names := pairwise_push orderly.names admits.name
  origins := pairwise_push orderly.origins admits.origin
  targets := pairwise_push orderly.targets admits.target
  made nested member := by
    -- The class was there before or is the one that joins.
    rcases Array.mem_push.mp member with earlier | rfl
    · exact orderly.made nested earlier
    · exact admits.made
  identifiers nested member := by
    rcases Array.mem_push.mp member with earlier | rfl
    · exact orderly.identifiers nested earlier
    · exact admits.identifier

end Declaration

/-- The records of a declaration: its own and all below it. -/
abbrev Model.realm (model : Model) (owner : DeclarationId) : Set RecordId :=
  model.ledger.scope (model.declaration owner).record

/-- Whether a nested class belongs to a declaration: it was made for the schema of a record below that of
the declaration, and from such a record unless it is a variant. -/
structure Model.Originates (first : Model) (owner : DeclarationId) (nested : NestedClass) : Prop where
  origin : ∃ id ∈ first.realm owner, (first.ledger.record id).schema = nested.origin
  record : nested.isVariant = false → nested.record ∈ first.realm owner

/-- A state of a resolution that began with a model of which nothing was resolved: the records that were
surveyed are settled, the declarations have grown, and the classes nested in them belong there and are in
order. -/
structure Model.Arranged (first model : Model) : Prop where
  declared : first.Declared
  ledger : first.ledger.Settles model.ledger
  size : model.declarations.size = first.declarations.size
  grows : ∀ id, (first.declaration id).Grows (model.declaration id)
  orderly : ∀ id, (model.declaration id).Orderly
  belongs : ∀ id, ∀ nested ∈ (model.declaration id).nested, first.Originates id nested

namespace Modelling

/-- A single write of a resolution: to what was surveyed, to what is noted about a declaration, a plan, or
a class that is nested in a declaration. -/
inductive Write (context : Context) : Model → Model → Prop where
  | survey {model : Model} (survey : Survey) : Write context model { model with survey }
  | note {model : Model} (id : DeclarationId) {change : Declaration → Declaration}
      (same : ∀ declaration, change declaration =
        { declaration with
          base := (change declaration).base
          derived := (change declaration).derived
          interfaces := (change declaration).interfaces
          imports := (change declaration).imports
          isAnalysed := (change declaration).isAnalysed
          hasVariants := (change declaration).hasVariants })
      (isAnalysed : ∀ declaration, declaration.isAnalysed → (change declaration).isAnalysed)
      (hasVariants : ∀ declaration, declaration.hasVariants → (change declaration).hasVariants) :
      Write context model (model.updateDeclaration id change)
  | plan {model : Model} (owner : DeclarationId) (id : RecordId) (shape : Shape) :
      Write context model (model.plan context owner id shape)
  | nest {model : Model} (owner : DeclarationId) (added : NestedClass) :
      Write context model (model.updateDeclaration owner fun declaration =>
        { declaration with nested := declaration.nested.push added })

/-- The states that a resolution goes through, one write after the other, all of them arranged. -/
abbrev Trail (context : Context) (first : Model) : Model → Model → Prop :=
  Relation.ReflTransGen fun before after => Write context before after ∧ first.Arranged after

/-- What writes keep of declarations: these grow, and what was resolved stays so. -/
structure Forward (before after : Model) : Prop where
  size : after.declarations.size = before.declarations.size
  grows : ∀ id, (before.declaration id).Grows (after.declaration id)
  isAnalysed : ∀ id, (before.declaration id).isAnalysed → (after.declaration id).isAnalysed
  hasVariants : ∀ id, (before.declaration id).hasVariants → (after.declaration id).hasVariants

namespace Forward

variable {a b c : Model}

theorem refl (model : Model) : Forward model model :=
  ⟨rfl, fun _ => .refl _, fun _ held => held, fun _ held => held⟩

theorem trans (first : Forward a b) (second : Forward b c) : Forward a c where
  size := second.size.trans first.size
  grows id := (first.grows id).trans (second.grows id)
  isAnalysed id held := second.isAnalysed id (first.isAnalysed id held)
  hasVariants id held := second.hasVariants id (first.hasVariants id held)

/-- A change of one declaration. -/
theorem updateDeclaration {model : Model} {id : DeclarationId} {change : Declaration → Declaration}
    (grows : (model.declaration id).Grows (change (model.declaration id)))
    (isAnalysed : (model.declaration id).isAnalysed → (change (model.declaration id)).isAnalysed)
    (hasVariants : (model.declaration id).hasVariants → (change (model.declaration id)).hasVariants) :
    Forward model (model.updateDeclaration id change) where
  size := Model.size_updateDeclaration
  grows _ := Model.rel_updateDeclaration Declaration.Grows.refl grows
  isAnalysed _ :=
    @Model.rel_updateDeclaration _ _ _ (fun a b => a.isAnalysed → b.isAnalysed) _ (fun _ held => held)
      isAnalysed
  hasVariants _ :=
    @Model.rel_updateDeclaration _ _ _ (fun a b => a.hasVariants → b.hasVariants) _ (fun _ held => held)
      hasVariants

/-- A class is nested in a declaration. -/
theorem nest {model : Model} {owner : DeclarationId} {added : NestedClass} :
    Forward model (model.updateDeclaration owner fun declaration =>
      { declaration with nested := declaration.nested.push added }) :=
  .updateDeclaration
    ⟨rfl, rfl, rfl, by simp, List.prefix_rfl, List.Subset.refl _, fun held => held⟩
    (fun held => held) fun held => held

end Forward

variable {context : Context} {first before after model : Model}

/-- A write leads forward. -/
theorem Write.forward (write : Write context before after) : Forward before after := by
  cases write with
  | survey survey => exact ⟨rfl, fun _ => .refl _, fun _ held => held, fun _ held => held⟩
  | note id same isAnalysed hasVariants =>
    refine .updateDeclaration ?_ (isAnalysed _) (hasVariants _)
    -- A note leaves names, constants and nested classes alone.
    rw [same]
    exact ⟨rfl, rfl, rfl, List.prefix_rfl, List.prefix_rfl, List.Subset.refl _, fun held => held⟩
  | plan owner id shape =>
    -- A plan is a step of an analysis, which keeps all marks.
    have step : Step context owner Set.univ before (before.plan context owner id shape) :=
      .plan (Set.mem_univ id) shape
    exact ⟨step.size_eq.2, step.grows, fun id held => (step.ahead.isAnalysed id).trans held,
      fun id held => (step.ahead.hasVariants id).trans held⟩
  | nest owner added => exact .nest

/-- A write removes no nested class, and one that it nests comes behind all others. -/
theorem Write.nested_grows (write : Write context before after) (id : DeclarationId) :
    (before.declaration id).nested.toList <+: (after.declaration id).nested.toList := by
  -- Only nesting adds a class, at the end.
  cases write with
  | survey survey => exact List.prefix_rfl
  | note other same isAnalysed hasVariants =>
    refine @Model.rel_updateDeclaration _ _ _ (fun a b => a.nested.toList <+: b.nested.toList) _
      (fun _ => List.prefix_rfl) ?_
    rw [same]
  | plan owner record shape => rw [nested_plan]
  | nest owner added =>
    refine @Model.rel_updateDeclaration _ _ _ (fun a b => a.nested.toList <+: b.nested.toList) _
      (fun _ => List.prefix_rfl) ?_
    rw [Array.toList_push]
    exact List.prefix_append _ _

/-- Where all nested classes are in order, they were so after each of the writes before. -/
theorem Write.orderly_before (writes : Relation.ReflTransGen (Write context) before after)
    (orderly : ∀ id, (after.declaration id).Orderly) : ∀ id, (before.declaration id).Orderly := by
  -- The induction goes backwards from the end, where all classes are in order.
  induction writes using Relation.ReflTransGen.head_induction_on with
  | refl => exact orderly
  | head write _ ih => exact fun id => (ih id).earlier (write.nested_grows id)

/-- A trail leads forward. -/
theorem Trail.forward (trail : Trail context first before after) : Forward before after := by
  induction trail with
  | refl => exact .refl _
  | tail _ write ih => exact ih.trans write.1.forward

/-- A trail from an arranged state leads to one. -/
theorem Trail.arranged (trail : Trail context first before after) (arranged : first.Arranged before) :
    first.Arranged after := by
  cases trail with
  | refl => exact arranged
  | tail _ write => exact write.2

/-- A trail of one write. -/
theorem Trail.single (write : Write context before after) (arranged : first.Arranged after) :
    Trail context first before after := Relation.ReflTransGen.single ⟨write, arranged⟩

end Modelling

namespace Model

variable {first model : Model} {owner : DeclarationId}

/-- What is declared is arranged before anything is resolved. -/
theorem Declared.arranged (declared : first.Declared) : first.Arranged first where
  declared := declared
  ledger := ⟨Nat.le_refl _, fun _ _ => .refl _⟩
  size := rfl
  grows _ := .refl _
  orderly id := Declaration.orderly_of_nested (declared.raw id).nested
  belongs id nested member := by
    rw [(declared.raw id).nested] at member
    exact absurd member (Array.not_mem_empty _)

/-- There are finitely many records below that of a declaration. -/
theorem Declared.finite_realm (declared : first.Declared)
    (inside : owner.index < first.declarations.size) : (first.realm owner).Finite := by
  have present := (declared.closed_scope inside).present
  -- All of them lie in the ledger, which is finite.
  refine Set.Finite.subset (Set.Finite.preimage ?_ (Set.finite_lt_nat first.ledger.size)) present
  exact Function.Injective.injOn fun _ _ same => RecordId.ext same

/-- There are no more of them than records. -/
theorem Declared.ncard_realm_le (declared : first.Declared)
    (inside : owner.index < first.declarations.size) :
    (first.realm owner).ncard ≤ first.ledger.size := by
  have present := (declared.closed_scope inside).present
  -- The numbers of the records lie below the size of the ledger.
  have numbers : RecordId.index '' first.realm owner ⊆ (Finset.range first.ledger.size : Set Nat) := by
    rintro _ ⟨id, member, rfl⟩
    exact Finset.mem_coe.mpr (Finset.mem_range.mpr (present id member))
  calc (first.realm owner).ncard
      = (RecordId.index '' first.realm owner).ncard :=
        (Set.ncard_image_of_injective _ fun _ _ same => RecordId.ext same).symm
    _ ≤ (Finset.range first.ledger.size : Set Nat).ncard := Set.ncard_le_ncard numbers
    _ = first.ledger.size := by rw [Set.ncard_coe_finset, Finset.card_range]

namespace Arranged

/-- Records change as the resolution of classes may change them. -/
theorem survey (arranged : first.Arranged model) {survey : Survey}
    (settles : first.ledger.Settles survey.ledger) : first.Arranged { model with survey } :=
  { arranged with ledger := settles }

/-- A write that nests no class leaves those that are there in order. -/
theorem forward {after : Model} (arranged : first.Arranged model)
    (forward : Modelling.Forward model after) (settles : first.ledger.Settles after.ledger)
    (same : ∀ id, (after.declaration id).nested = (model.declaration id).nested) :
    first.Arranged after where
  declared := arranged.declared
  ledger := settles
  size := forward.size.trans arranged.size
  grows id := (arranged.grows id).trans (forward.grows id)
  orderly id := (arranged.orderly id).congr (same id)
  belongs id nested member := by
    -- The classes are those that were there, for the same reasons.
    rw [same] at member
    exact arranged.belongs id nested member

/-- A class is nested that belongs to the declaration and may join it. -/
theorem nest (arranged : first.Arranged model) {added : NestedClass}
    (belongs : first.Originates owner added) (admits : (model.declaration owner).Admits added) :
    first.Arranged (model.updateDeclaration owner fun declaration =>
      { declaration with nested := declaration.nested.push added }) := by
  -- Nesting a class keeps all that was declared.
  have forward : Modelling.Forward model (model.updateDeclaration owner fun declaration =>
      { declaration with nested := declaration.nested.push added }) := .nest
  refine ⟨arranged.declared, arranged.ledger, forward.size.trans arranged.size,
    fun id => (arranged.grows id).trans (forward.grows id), fun id => ?_, fun id nested member => ?_⟩
  · rw [declaration_updateDeclaration]
    split
    · exact (arranged.orderly owner).push admits
    · exact arranged.orderly id
  · -- In the declaration that was changed, one class is new.
    rw [declaration_updateDeclaration] at member
    split at member
    · rename_i same
      rw [same.1]
      rcases Array.mem_push.mp member with earlier | rfl
      · exact arranged.belongs owner nested earlier
      · exact belongs
    · exact arranged.belongs id nested member

/-- No more classes are nested in a declaration than it has records. -/
theorem nested_size_le (arranged : first.Arranged model)
    (inside : owner.index < first.declarations.size) :
    (model.declaration owner).nested.size ≤ (first.realm owner).ncard := by
  have finite : (first.realm owner).Finite := arranged.declared.finite_realm inside
  -- Different classes were made for different schemas, each that of a record.
  have distinct : ((model.declaration owner).nested.toList.map (·.origin)).Nodup :=
    List.pairwise_map.mpr (arranged.orderly owner).origins
  have within : (((model.declaration owner).nested.toList.map (·.origin)).toFinset : Set _) ⊆
      (fun id => (first.ledger.record id).schema) '' first.realm owner := by
    intro origin member
    obtain ⟨nested, held, rfl⟩ := List.mem_map.mp (List.mem_toFinset.mp member)
    exact (arranged.belongs owner nested (Array.mem_toList_iff.mp held)).origin
  calc (model.declaration owner).nested.size
      = ((model.declaration owner).nested.toList.map (·.origin)).toFinset.card := by
        rw [List.toFinset_card_of_nodup distinct, List.length_map, Array.length_toList]
    _ = (((model.declaration owner).nested.toList.map (·.origin)).toFinset : Set _).ncard :=
        (Set.ncard_coe_finset _).symm
    _ ≤ ((fun id => (first.ledger.record id).schema) '' first.realm owner).ncard :=
        Set.ncard_le_ncard within (finite.image _)
    _ ≤ (first.realm owner).ncard := Set.ncard_image_le finite

/-- What a class extends does not change. -/
theorem base?_eq (arranged : first.Arranged model) {tree : SchemaTree} {id : DeclarationId} :
    model.base? tree id = first.base? tree id :=
  base?_congr arranged.size (fun id => (arranged.grows id).schema) fun id => (arranged.grows id).kind

/-- No more do all bases of a class. -/
theorem allBases_eq (arranged : first.Arranged model) {tree : SchemaTree} {id : DeclarationId} :
    model.allBases tree id = first.allBases tree id :=
  allBases_congr arranged.size (fun id => (arranged.grows id).schema) fun id => (arranged.grows id).kind

/-- Whether bases run in a circle does not change. -/
theorem circularBase?_eq (arranged : first.Arranged model) {tree : SchemaTree} :
    model.circularBase? tree = first.circularBase? tree := by
  -- A circle is looked for among the bases only, and these are the same.
  unfold circularBase? ids leadsCircle
  simp only [arranged.size, arranged.allBases_eq]

/-- The records of a declaration are settled. -/
theorem settles (arranged : first.Arranged model) (inside : owner.index < first.declarations.size)
    {id : RecordId} (member : id ∈ first.realm owner) :
    (first.ledger.record id).Settles (model.ledger.record id) :=
  arranged.ledger.record id ((arranged.declared.closed_scope inside).present id member)

/-- The records of a declaration were made for schemas. -/
theorem schema_isSome (arranged : first.Arranged model)
    (inside : owner.index < first.declarations.size) {id : RecordId}
    (member : id ∈ first.realm owner) : (model.ledger.record id).schema.isSome := by
  rw [(arranged.settles inside member).sameOrigin.schema]
  exact (arranged.declared.closed_scope inside).schema id member

/-- What lies inside a record of a declaration is one of its records too, and lies behind. -/
theorem mem_realm (arranged : first.Arranged model)
    (inside : owner.index < first.declarations.size) {id child : RecordId}
    (member : id ∈ first.realm owner) (held : child ∈ (model.ledger.record id).children) :
    child ∈ first.realm owner ∧ id.index < child.index := by
  rw [(arranged.settles inside member).children_eq] at held
  exact ⟨Ledger.mem_scope_of_child member held, (arranged.declared.sound.forest.inside id child held).1⟩

end Arranged

end Model

end SchemaClasses
