import SchemaClasses.Proofs.Resolution.Bases
import SchemaClasses.Proofs.Resolution.Walks

/-! Every record that has a generated class has one that suits it, every nested class stands for the
record that it was made from, and classes are related to classes that are there. -/

namespace SchemaClasses

/-- Whether a declaration is related to classes that are there, and its nested classes lie in earlier
ones and were made for different schemas. -/
structure Model.Links (model : Model) (declaration : Declaration) : Prop where
  base : ∀ base, declaration.base = some base → model.HasClass (.declaration base)
  derived : ∀ other ∈ declaration.derived, model.HasClass (.declaration other)
  interfaces : ∀ ref ∈ declaration.interfaces, model.HasClass ref
  parent : ∀ (index : Nat) (nested : NestedClass), declaration.nested[index]? = some nested →
    ∀ parent, nested.parent = some parent → parent < index
  implements : ∀ (index : Nat) (nested : NestedClass), declaration.nested[index]? = some nested →
    ∀ ref ∈ nested.interfaces, model.HasClass ref
  distinct : ∀ (index other : Nat) (nested nested' : NestedClass),
    declaration.nested[index]? = some nested → declaration.nested[other]? = some nested' →
    nested.origin = nested'.origin → index = other

/-- Classes that are there stay there, so that a declaration stays related to them. -/
theorem Model.Links.of_grown {before after : Model} {declaration : Declaration}
    (links : before.Links declaration)
    (hasClass : ∀ ref, before.HasClass ref → after.HasClass ref) : after.Links declaration where
  base base held := hasClass _ (links.base base held)
  derived other member := hasClass _ (links.derived other member)
  interfaces ref member := hasClass _ (links.interfaces ref member)
  parent := links.parent
  implements index nested there ref member := hasClass _ (links.implements index nested there ref member)
  distinct := links.distinct

/-- What is noted about a declaration relates it to classes that are there. -/
theorem Model.Links.note {model : Model} {before after : Declaration} (links : model.Links before)
    (notes : model.Notes before after) : model.Links after where
  base base held := by
    -- A note changes only the three relations that are listed.
    rw [notes.same] at held
    exact links.base base held
  derived other member := (notes.derived other member).elim (links.derived other) id
  interfaces ref member := (notes.interfaces ref member).elim (links.interfaces ref) id
  parent := by
    rw [notes.same]
    exact links.parent
  implements := by
    rw [notes.same]
    exact links.implements
  distinct := by
    rw [notes.same]
    exact links.distinct

/-- A nested class that may join those of a declaration does so. -/
theorem Model.Links.nest {model : Model} {owner : DeclarationId} {nested : NestedClass}
    (links : model.Links (model.declaration owner)) (places : model.Places owner nested) :
    model.Links { model.declaration owner with
      nested := (model.declaration owner).nested.push nested } := by
  refine { links with
    parent := fun index other there parent held => ?_
    implements := fun index other there ref member => ?_
    distinct := fun index index' other other' there there' same => ?_ }
  · -- The parent of the new class was there before it.
    rw [Array.getElem?_push] at there
    split at there
    · rename_i last
      cases there
      exact last ▸ places.parent parent held
    · exact links.parent index other there parent held
  · -- The new class implements what its place allows.
    rw [Array.getElem?_push] at there
    split at there
    · cases there
      exact places.interfaces ref member
    · exact links.implements index other there ref member
  · -- The new class is the only one for its schema.
    rw [Array.getElem?_push] at there there'
    split at there
    · rename_i last
      cases there
      split at there'
      · rename_i last'
        exact last.trans last'.symm
      · exact absurd same.symm (places.fresh other' (Array.mem_of_getElem? there'))
    · -- Of two old classes, neither is new, and they were told apart before.
      split at there'
      · cases there'
        exact absurd same (places.fresh other (Array.mem_of_getElem? there))
      · exact links.distinct index index' other other' there there' same

/-- A model in which the classes of records are in order. -/
structure Model.Sane (context : Context) (model : Model) : Prop where
  shaped : ∀ id ref, (model.ledger.record id).shape = some (.reference (.generated ref)) →
    (model.ledger.record id).typeRef = some (.generated ref)
  suits : ∀ id ref, (model.ledger.record id).typeRef = some (.generated ref) →
    model.Suits context id ref
  nested : ∀ (owner : DeclarationId) (index : Nat) (nested : NestedClass),
    (model.declaration owner).nested[index]? = some nested →
    nested.record.index < model.ledger.size ∧
      nested.MadeFrom (model.ledger.record nested.record)
  links : ∀ id, model.Links (model.declaration id)
  variants : ∀ (owner : DeclarationId), ∀ nested ∈ (model.declaration owner).nested,
    nested.isVariant = true → ∃ ref, model.VariantOf owner nested ref

namespace Modelling

variable {context : Context} {owner : DeclarationId} {scope : Set RecordId}
variable {before after : Model} {id : RecordId} {ref : ClassRef}

/-- A class that suits a record goes on doing so. -/
theorem Later.suits (later : Later before after) (suits : before.Suits context id ref) :
    -- The record keeps its schema and target, whatever the analysis decides.
    after.Suits context id ref := by
  have target := (later.settles id).target_eq
  have schema := (later.settles id).sameOrigin.schema
  -- What makes a class suit a record never changes: its schema, its target, and who stands for that.
  cases suits with
  | declared refers stands =>
    refine .declared (target.trans refers) ?_
    rw [Model.declarationFor?_congr later.declarations fun other => (later.grows other).schema]
    exact stands
  | origin there made same =>
    exact .origin ((later.grows _).getElem?_nested there) (schema.trans made) same
  | target there refers same =>
    exact .target ((later.grows _).getElem?_nested there) (target.trans refers) same

/-- A nested class stands for its record as long as the record is settled only. -/
theorem Later.madeFrom (later : Later before after) {nested : NestedClass}
    (made : nested.MadeFrom (before.ledger.record nested.record)) :
    nested.MadeFrom (after.ledger.record nested.record) := by
  have target := (later.settles nested.record).target_eq
  have schema := (later.settles nested.record).sameOrigin.schema
  exact ⟨made.origin.trans schema.symm, made.target.imp_right fun same => same.trans target.symm⟩

/-- A variant of a class stays one as long as records are settled only. -/
theorem Later.variantOf (later : Later before after) {nested : NestedClass}
    (variant : before.VariantOf owner nested ref) : after.VariantOf owner nested ref :=
  variant.of_grown (later.grows owner) (Nat.le_of_eq later.size.symm) fun id _ =>
    ⟨(later.settles id).oneOf_eq, (later.settles id).sameOrigin.schema⟩

/-- A model is sane as it was declared. -/
theorem sane_of_declared (declared : before.Declared) : before.Sane context where
  shaped id ref held := by
    -- Nothing is shaped, typed or nested yet.
    rw [(declared.sound.raw id).shape] at held
    cases held
  suits id ref held := by
    rw [(declared.sound.raw id).typeRef] at held
    cases held
  nested owner index nested there := by
    rw [(declared.raw owner).nested] at there
    simp at there
  -- A declaration is linked to no other and has no class nested in it.
  links id := by
    have raw := declared.raw id
    constructor
    · simp [raw.base]
    · simp [raw.derived]
    · simp [raw.interfaces]
    · simp [raw.nested]
    · simp [raw.nested]
    · simp [raw.nested]
  variants owner nested member := by
    rw [(declared.raw owner).nested] at member
    exact absurd member (Array.not_mem_empty _)

/-- What changes neither classes nor shapes keeps a model sane. -/
theorem Later.sane (later : Later before after) (sane : before.Sane context)
    (typeRef : ∀ id, (after.ledger.record id).typeRef = (before.ledger.record id).typeRef)
    (shape : ∀ id, (after.ledger.record id).shape = (before.ledger.record id).shape)
    (nested : ∀ id, (after.declaration id).nested = (before.declaration id).nested)
    (links : ∀ id, before.Links (after.declaration id)) : after.Sane context where
  shaped id ref held := by
    rw [shape] at held
    rw [typeRef]
    exact sane.shaped id ref held
  -- A class that suited the record still does.
  suits id ref held := by
    rw [typeRef] at held
    exact later.suits (sane.suits id ref held)
  nested owner index class' there := by
    rw [nested] at there
    -- A class was made from a record that is still there and of the same schema.
    obtain ⟨present, made⟩ := sane.nested owner index class' there
    rw [later.size]
    exact ⟨present, later.madeFrom made⟩
  links id := (links id).of_grown fun _ there => later.hasClass there
  variants owner class' member isVariant := by
    rw [nested] at member
    obtain ⟨ref, variant⟩ := sane.variants owner class' member isVariant
    exact ⟨ref, later.variantOf variant⟩

/-- A change of one record keeps a model sane if the record is so afterwards. -/
theorem sane_updateRecord {change : Record → Record} (sane : before.Sane context)
    (later : Later before (before.updateRecord id change))
    (shaped : ∀ ref, (change (before.ledger.record id)).shape = some (.reference (.generated ref)) →
      (change (before.ledger.record id)).typeRef = some (.generated ref))
    (suits : ∀ ref, (change (before.ledger.record id)).typeRef = some (.generated ref) →
      before.Suits context id ref) :
    (before.updateRecord id change).Sane context where
  shaped other ref held := by
    -- Only the changed record can have a new shape or class.
    -- A record that is not changed has the shape and class that it had.
    rw [Model.ledger_updateRecord, Ledger.record_update] at held ⊢
    split at held
    · rename_i same
      rw [if_pos same]
      exact shaped ref held
    · rename_i different
      rw [if_neg different]
      exact sane.shaped other ref held
  suits other ref held := by
    refine later.suits ?_
    rw [Model.ledger_updateRecord, Ledger.record_update] at held
    split at held
    · rename_i same
      rw [same.1]
      exact suits ref held
    · exact sane.suits other ref held
  nested owner index nested there := by
    -- The record of a class is one from before, and the ledger does not shrink.
    obtain ⟨present, made⟩ := sane.nested owner index nested there
    rw [later.size]
    exact ⟨present, later.madeFrom made⟩
  links id := (sane.links id).of_grown fun _ there => later.hasClass there
  variants owner nested member isVariant := by
    obtain ⟨ref, variant⟩ := sane.variants owner nested member isVariant
    exact ⟨ref, later.variantOf variant⟩

/-- A change of one declaration keeps a model sane if its new nested classes stand for records. -/
theorem sane_updateDeclaration {change : Declaration → Declaration} (sane : before.Sane context)
    (later : Later before (before.updateDeclaration owner change))
    (nested : ∀ (index : Nat) (nested : NestedClass),
      (change (before.declaration owner)).nested[index]? = some nested →
      (before.declaration owner).nested[index]? = some nested ∨
        nested.record.index < before.ledger.size ∧
          nested.MadeFrom (before.ledger.record nested.record) ∧
          (nested.isVariant = true → ∃ ref, before.VariantOf owner nested ref))
    (links : before.Links (change (before.declaration owner))) :
    (before.updateDeclaration owner change).Sane context where
  shaped := sane.shaped
  suits id ref held := later.suits (sane.suits id ref held)
  nested other index class' there := by
    rw [Model.declaration_updateDeclaration] at there
    split at there
    · -- A class of the changed declaration was there before, or was made from a record.
      rcases nested index class' there with old | new
      · exact sane.nested owner index class' old
      · exact ⟨new.1, new.2.1⟩
    · exact sane.nested other index class' there
  variants other class' member isVariant := by
    suffices ∃ ref, before.VariantOf other class' ref from this.imp fun _ => later.variantOf
    rw [Model.declaration_updateDeclaration] at member
    -- Only the classes of the changed declaration have to be looked at.
    split at member
    · rename_i same
      obtain ⟨index, there⟩ := Array.mem_iff_getElem?.mp member
      rw [same.1]
      rcases nested index class' there with old | new
      · exact sane.variants owner class' (Array.mem_of_getElem? old) isVariant
      · exact new.2.2 isVariant
    · exact sane.variants other class' member isVariant
  links id := by
    refine Model.Links.of_grown ?_ fun _ there => later.hasClass there
    rw [Model.declaration_updateDeclaration]
    -- The changed declaration is linked as assumed, and the others as before.
    split
    · exact links
    · exact sane.links id

/-- A step keeps a model sane. -/
theorem Step.sane (taken : Step context owner scope before after)
    (present : ∀ id ∈ scope, id.index < before.ledger.size) (sane : before.Sane context) :
    after.Sane context := by
  have later := taken.ahead.toLater
  cases taken with
  | @mark other marked acts marks =>
    refine sane_updateRecord sane later (fun ref held => ?_) fun ref held => ?_
    · cases marks with
      | shaped first typed =>
        -- The shape names a class only if the record has it already.
        cases held
        exact typed ref rfl
      -- Reconciling touches neither shape nor class.
      | reconciled required =>
        rw [Record.reconciled_eq] at held ⊢
        exact sane.shaped other ref held
    · rw [marks.eq] at held
      exact sane.suits other ref held
  | @type other ref shape acts unset suits shaped =>
    refine sane_updateRecord sane later (fun ref' held => ?_) fun ref' held => ?_
    · rcases shaped with same | ⟨-, same⟩
      · -- The record had no class, so that its shape was none either.
        have earlier := sane.shaped other ref' (same.symm.trans held)
        rw [unset] at earlier
        cases earlier
      · rw [same] at held
        cases held
        rfl
    · cases held
      exact suits
  | @plan other acts shape =>
    -- A plan touches checks, constants and library types, and no class.
    refine later.sane sane (fun id => ?_) (fun id => ?_) (fun id => ?_) fun id => ?_
    · exact Model.field_plan Record.typeRef fun _ _ _ => rfl
    · exact Model.field_plan Record.shape fun _ _ _ => rfl
    · rw [Model.declaration_plan_eq_update]
      exact Model.field_updateDeclaration Declaration.nested rfl
    · rw [Model.declaration_plan]
      split
      · exact { sane.links owner with }
      · exact sane.links id
  | @nest nested acts made places =>
    refine sane_updateDeclaration sane later (fun index class' there => ?_)
      ((sane.links owner).nest places)
    -- The class is the new one, made from a record of the scope, or it was there.
    rw [Array.getElem?_push] at there
    split at there
    · cases there
      exact .inr ⟨present _ acts, made, places.variant⟩
    · exact .inl there
  | note other notes =>
    refine sane_updateDeclaration sane later (fun index class' there => ?_)
      ((sane.links other).note notes)
    -- What is noted is no nested class.
    rw [notes.same] at there
    exact .inl there

/-- Steps keep a model sane. -/
theorem Steps.sane (steps : Steps context owner scope before after)
    (present : ∀ id ∈ scope, id.index < before.ledger.size) (sane : before.Sane context) :
    after.Sane context := by
  induction steps with
  | refl => exact sane
  | tail steps taken ih =>
    refine taken.sane (fun id acts => ?_) ih
    rw [(Steps.ahead steps).size]
    exact present id acts

end Modelling

end SchemaClasses
