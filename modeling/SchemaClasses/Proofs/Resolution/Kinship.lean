import SchemaClasses.Proofs.Resolution.Bases
import SchemaClasses.Proofs.Resolution.Moves

/-! How declarations stand to each other: members are analysed and variants are made inside them, which
changes nothing of it. Whatever becomes of a resolution, and however often it is tried, the classes derived
from a class are those that extend or implement it. -/

namespace SchemaClasses

/-- A later state of a declaration that has changed only inside: in the classes nested in it, its
constants, and what these need from elsewhere. -/
def Declaration.StandsAs (before after : Declaration) : Prop :=
  after =
    { before with
      nested := after.nested
      constants := after.constants
      libraryTypes := after.libraryTypes
      imports := after.imports }

/-- Two changes inside a declaration are one. -/
theorem Declaration.StandsAs.trans {a b c : Declaration} (first : a.StandsAs b)
    (second : b.StandsAs c) : a.StandsAs c := by
  unfold StandsAs at *
  rw [second, first]

/-- A later state of a model whose declarations have changed only inside. -/
structure Model.Aligned (before after : Model) : Prop where
  size : after.declarations.size = before.declarations.size
  stands : ∀ id, (before.declaration id).StandsAs (after.declaration id)

namespace Model.Aligned

variable {first model : Model} {id : DeclarationId} {tree : SchemaTree}

theorem refl (model : Model) : model.Aligned model := ⟨rfl, fun _ => rfl⟩

/-- What a change leaves alone in every declaration it leaves alone in all later states. -/
theorem field {α : Type} (field : Declaration → α) (aligned : first.Aligned model)
    (kept : ∀ (declaration : Declaration) nested constants libraryTypes imports,
      field { declaration with nested, constants, libraryTypes, imports } = field declaration) :
    field (model.declaration id) = field (first.declaration id) := by
  rw [aligned.stands id]
  exact kept _ _ _ _ _

theorem kind (aligned : first.Aligned model) :
    (model.declaration id).kind = (first.declaration id).kind :=
  aligned.field Declaration.kind fun _ _ _ _ _ => rfl

theorem schema (aligned : first.Aligned model) :
    (model.declaration id).schema = (first.declaration id).schema :=
  aligned.field Declaration.schema fun _ _ _ _ _ => rfl

theorem base (aligned : first.Aligned model) :
    (model.declaration id).base = (first.declaration id).base :=
  aligned.field Declaration.base fun _ _ _ _ _ => rfl

theorem derived (aligned : first.Aligned model) :
    (model.declaration id).derived = (first.declaration id).derived :=
  aligned.field Declaration.derived fun _ _ _ _ _ => rfl

theorem interfaces (aligned : first.Aligned model) :
    (model.declaration id).interfaces = (first.declaration id).interfaces :=
  aligned.field Declaration.interfaces fun _ _ _ _ _ => rfl

/-- Which class a class extends stays decided. -/
theorem base? (aligned : first.Aligned model) : model.base? tree id = first.base? tree id :=
  Model.base?_congr aligned.size (fun _ => aligned.schema) fun _ => aligned.kind

/-- A change inside one declaration. -/
theorem updateDeclaration (aligned : first.Aligned model) {change : Declaration → Declaration}
    (stands : ∀ declaration : Declaration, declaration.StandsAs (change declaration)) :
    first.Aligned (model.updateDeclaration id change) where
  size := size_updateDeclaration.trans aligned.size
  stands _ := (aligned.stands _).trans (rel_updateDeclaration (fun _ => rfl) (stands _))

/-- A change of what was surveyed. -/
theorem survey (aligned : first.Aligned model) {survey : Survey} :
    first.Aligned { model with survey } := ⟨aligned.size, aligned.stands⟩

end Model.Aligned

namespace Modelling

variable {first before after : Model} {context : Context}

/-- Work inside a declaration leaves the declarations as they stand to each other. -/
theorem Work.aligned (work : Work context before after) (aligned : first.Aligned before) :
    first.Aligned after := by
  cases work with
  | plan owner id shape => exact aligned.survey.updateDeclaration fun _ => rfl
  | nest owner added => exact aligned.updateDeclaration fun _ => rfl
  | importing owner name => exact aligned.updateDeclaration fun _ => rfl
  | _ => exact aligned.survey

end Modelling

/-- What the resolution of so many declarations keeps: changes inside a declaration do not touch it, nor
does a link between a class and its base or one that it implements. -/
structure Enduring (context : Context) (count : Nat) (holds : Model → Prop) : Prop where
  size : ∀ {model}, holds model → model.declarations.size = count
  aligned : ∀ {model model'}, holds model → model.Aligned model' → holds model'
  based : ∀ {model id base}, holds model → id.index < count →
    model.Extends context.tree id base → holds (model.based id base)
  implemented : ∀ {model id interface}, holds model → id.index < count → interface.index < count →
    id ≠ interface → holds (model.implemented id interface)

/-- What endures though marks are set of what was resolved. -/
structure Lasting (context : Context) (count : Nat) (holds : Model → Prop) : Prop
    extends Enduring context count holds where
  marked : ∀ {model id change}, holds model →
    (∀ declaration : Declaration, declaration.IsMarked (change declaration)) →
    holds (model.updateDeclaration id change)

namespace Enduring

open Modelling

variable {context : Context} {count : Nat} {holds : Model → Prop} {id : DeclarationId}

/-- What endures is not broken. -/
theorem unbroken (enduring : Enduring context count holds) : Unbroken context count holds where
  size := enduring.size
  work held work := enduring.aligned held (work.aligned (.refl _))
  based := enduring.based
  implemented := enduring.implemented

/-- A declaration is analysed. -/
theorem analyseDeclaration (enduring : Enduring context count holds) (inside : id.index < count) :
    Keeps holds LacksName (analyseDeclaration context id) := enduring.unbroken.analyseDeclaration inside

end Enduring

namespace Lasting

open Modelling

variable {context : Context} {count : Nat} {holds : Model → Prop} {id : DeclarationId}

/-- What lasts is not broken by marks either. -/
theorem steadfast (lasting : Lasting context count holds) : Steadfast context count holds where
  toUnbroken := lasting.unbroken
  marked := lasting.marked

/-- Without a circle of base classes all declarations are resolved: nothing but the lack of a name stops
that. -/
theorem resolveAll (lasting : Lasting context count holds) {ids : List DeclarationId}
    (inside : ∀ id ∈ ids, id.index < count) :
    Keeps holds LacksName (do
      ids.forM (Modelling.resolveMembers context)
      ids.forM (Modelling.resolveVariants context)) := lasting.steadfast.resolveAll inside

end Lasting

namespace Model

variable {model after : Model} {tree : SchemaTree} {a b id base interface : DeclarationId}

/-- Whether a class is noted to extend or to implement another one. -/
def Specialises (model : Model) (a b : DeclarationId) : Prop :=
  (model.declaration a).base = some b ∨ .declaration b ∈ (model.declaration a).interfaces

/-- Whether the lists of derived classes are the converse of the links to bases and interfaces: every
list names a class once, and no class is derived from itself. -/
structure Mirrored (model : Model) : Prop where
  derived_iff : ∀ a b, a ∈ (model.declaration b).derived ↔ model.Specialises a b
  not_self : ∀ a, a ∉ (model.declaration a).derived
  derived_nodup : ∀ a, (model.declaration a).derived.Nodup
  interfaces_nodup : ∀ a, (model.declaration a).interfaces.Nodup

/-- A link between two classes that is written at both of them. -/
theorem Mirrored.link (mirrored : model.Mirrored) (different : a ≠ b)
    (derived : ∀ x, (after.declaration x).derived =
      if x = b then addNew (model.declaration b).derived a else (model.declaration x).derived)
    (specialises : ∀ x y, after.Specialises x y ↔ model.Specialises x y ∨ x = a ∧ y = b)
    (interfaces : ∀ x, (after.declaration x).interfaces.Nodup) : after.Mirrored where
  derived_iff x y := by
    rw [derived, specialises, ← mirrored.derived_iff]
    -- Only the second class gets another list of derived ones, and just the first one joins it.
    by_cases same : y = b
    · subst same
      simp [mem_addNew]
    · simp [same]
  not_self x := by
    -- A class would only list itself if the new link led from it to itself.
    rw [derived]
    split
    · rename_i same
      subst same
      rw [mem_addNew]
      rintro (known | rfl)
      · exact mirrored.not_self _ known
      · exact different rfl
    · exact mirrored.not_self x
  derived_nodup x := by
    -- Adding once more what is listed already adds nothing, so no class is listed twice.
    rw [derived]
    split
    · exact nodup_addNew (mirrored.derived_nodup b)
    · exact mirrored.derived_nodup x
  interfaces_nodup := interfaces

/-- Models that differ in no link differ in no list. -/
theorem Mirrored.congr (mirrored : model.Mirrored)
    (derived : ∀ id, (after.declaration id).derived = (model.declaration id).derived)
    (base : ∀ id, (after.declaration id).base = (model.declaration id).base)
    (interfaces : ∀ id, (after.declaration id).interfaces = (model.declaration id).interfaces) :
    after.Mirrored where
  derived_iff a b := by
    -- Which class specialises which is read off the two fields that are the same.
    simp only [Specialises, derived, base, interfaces]
    exact mirrored.derived_iff a b
  not_self a := by
    rw [derived]
    exact mirrored.not_self a
  derived_nodup a := by
    rw [derived]
    exact mirrored.derived_nodup a
  interfaces_nodup a := by
    rw [interfaces]
    exact mirrored.interfaces_nodup a

/-- A derived class joins one list. -/
theorem derived_addDerived (inside : b.index < model.declarations.size) :
    ((model.updateDeclaration b (·.addDerived a)).declaration id).derived =
      if id = b then addNew (model.declaration b).derived a else (model.declaration id).derived := by
  rw [declaration_updateDeclaration]
  -- A declaration that is there is updated, and all others keep their lists.
  by_cases same : id = b
  · rw [if_pos ⟨same, inside⟩, if_pos same]
    rfl
  · rw [if_neg fun both => same both.1, if_neg same]

/-- Which class a class extends is not decided by what is noted later. -/
theorem base?_updateDeclaration {change : Declaration → Declaration}
    (schema : (change (model.declaration id)).schema = (model.declaration id).schema)
    (kind : (change (model.declaration id)).kind = (model.declaration id).kind) :
    (model.updateDeclaration id change).base? tree a = model.base? tree a :=
  base?_congr size_updateDeclaration (fun _ => field_updateDeclaration Declaration.schema schema)
    fun _ => field_updateDeclaration Declaration.kind kind

theorem size_based : (model.based id base).declarations.size = model.declarations.size :=
  size_updateDeclaration.trans size_updateDeclaration

theorem size_implemented :
    (model.implemented id interface).declarations.size = model.declarations.size :=
  size_updateDeclaration.trans size_updateDeclaration

theorem base?_based : (model.based id base).base? tree a = model.base? tree a :=
  (base?_updateDeclaration rfl rfl).trans (base?_updateDeclaration rfl rfl)

theorem base?_implemented : (model.implemented id interface).base? tree a = model.base? tree a :=
  (base?_updateDeclaration rfl rfl).trans (base?_updateDeclaration rfl rfl)

/-- What a link to a base does not write it leaves alone. -/
theorem field_based {α : Type} (field : Declaration → α)
    (kept : ∀ (declaration : Declaration) base derived,
      field { declaration with base, derived } = field declaration) :
    field ((model.based id base).declaration a) = field (model.declaration a) :=
  (field_updateDeclaration field (kept _ _ _)).trans (field_updateDeclaration field (kept _ _ _))

/-- What a link to an interface does not write it leaves alone. -/
theorem field_implemented {α : Type} (field : Declaration → α)
    (kept : ∀ (declaration : Declaration) interfaces derived,
      field { declaration with interfaces, derived } = field declaration) :
    field ((model.implemented id interface).declaration a) = field (model.declaration a) :=
  (field_updateDeclaration field (kept _ _ _)).trans (field_updateDeclaration field (kept _ _ _))

/-- The classes derived after a class was noted to extend one. -/
theorem derived_based (inside : base.index < model.declarations.size) :
    ((model.based id base).declaration a).derived =
      if a = base then addNew (model.declaration base).derived id
      else (model.declaration a).derived := by
  -- Noting the base itself writes no list of derived classes, so only the second update counts.
  have before (x : DeclarationId) :
      ((model.updateDeclaration id fun declaration =>
        { declaration with base := some base }).declaration x).derived =
          (model.declaration x).derived := field_updateDeclaration Declaration.derived rfl
  rw [based, derived_addDerived (size_updateDeclaration.symm ▸ inside), before, before]

/-- The classes derived after a class was noted to implement one. -/
theorem derived_implemented (inside : interface.index < model.declarations.size) :
    ((model.implemented id interface).declaration a).derived =
      if a = interface then addNew (model.declaration interface).derived id
      else (model.declaration a).derived := by
  -- The same holds of noting the interface.
  have before (x : DeclarationId) :
      ((model.updateDeclaration id (·.addInterface (.declaration interface))).declaration x).derived =
        (model.declaration x).derived := field_updateDeclaration Declaration.derived rfl
  rw [implemented, derived_addDerived (size_updateDeclaration.symm ▸ inside), before, before]

/-- The bases that are noted after a class was noted to extend one. -/
theorem base_based (inside : id.index < model.declarations.size) :
    ((model.based id base).declaration a).base =
      if a = id then some base else (model.declaration a).base := by
  unfold based
  rw [field_updateDeclaration Declaration.base rfl, declaration_updateDeclaration]
  by_cases same : a = id
  · rw [if_pos ⟨same, inside⟩, if_pos same]
  · rw [if_neg fun both => same both.1, if_neg same]

theorem base_implemented :
    ((model.implemented id interface).declaration a).base = (model.declaration a).base :=
  field_implemented Declaration.base fun _ _ _ => rfl

/-- A class that is noted to extend its base is derived from it. -/
theorem Mirrored.based (mirrored : model.Mirrored) (inside : id.index < model.declarations.size)
    (inside' : base.index < model.declarations.size) (different : id ≠ base)
    (only : ∀ other, (model.declaration id).base = some other → other = base) :
    (model.based id base).Mirrored := by
  -- Extending a class writes no interface, so only the bases tell the specialisations apart.
  have interfaces (x : DeclarationId) :
      ((model.based id base).declaration x).interfaces = (model.declaration x).interfaces :=
    field_based Declaration.interfaces fun _ _ _ => rfl
  refine mirrored.link different (fun x => derived_based inside') (fun x y => ?_) fun x => ?_
  · -- The one new specialisation is that of the class by its base.
    simp only [Specialises, interfaces, base_based inside]
    by_cases same : x = id
    · subst same
      -- A base that was noted before is the same one.
      simp only [if_pos, true_and, Option.some.injEq]
      constructor
      · rintro (rfl | implements)
        · exact .inr rfl
        · exact .inl (.inr implements)
      · rintro ((known | implements) | rfl)
        · exact .inl (only y known).symm
        · exact .inr implements
        · exact .inl rfl
    · simp [same]
  · rw [interfaces]
    exact mirrored.interfaces_nodup x

/-- A class that is noted to implement another is derived from it. -/
theorem Mirrored.implemented (mirrored : model.Mirrored)
    (inside : id.index < model.declarations.size)
    (inside' : interface.index < model.declarations.size) (different : id ≠ interface) :
    (model.implemented id interface).Mirrored := by
  -- One class gets another list of interfaces, with the interface joined once.
  have interfaces (x : DeclarationId) :
      ((model.implemented id interface).declaration x).interfaces =
        if x = id then addNew (model.declaration id).interfaces (.declaration interface)
        else (model.declaration x).interfaces := by
    unfold Model.implemented
    rw [field_updateDeclaration Declaration.interfaces rfl, declaration_updateDeclaration]
    by_cases same : x = id
    · rw [if_pos ⟨same, inside⟩, if_pos same]
      rfl
    · rw [if_neg fun both => same both.1, if_neg same]
  refine mirrored.link different (fun x => derived_implemented inside') (fun x y => ?_) fun x => ?_
  · -- The bases are as they were, so the only new specialisation is through the interface.
    simp only [Specialises, interfaces, base_implemented]
    by_cases same : x = id
    · subst same
      simp [mem_addNew, or_assoc]
    · simp [same]
  · rw [interfaces]
    split
    · exact nodup_addNew (mirrored.interfaces_nodup id)
    · exact mirrored.interfaces_nodup x

/-- How so many declarations stand to each other while they are resolved: their bases run in no circle,
and only what a class extends is noted as its base. -/
structure Related (tree : SchemaTree) (count : Nat) (model : Model) : Prop where
  size : model.declarations.size = count
  grounded : model.Grounded tree
  mirrored : model.Mirrored
  chosen : ∀ a b, (model.declaration a).base = some b → model.Extends tree a b

/-- A model whose bases are those of another one is as grounded. -/
theorem Grounded.congr (grounded : model.Grounded tree)
    (size : after.declarations.size = model.declarations.size)
    (base : ∀ id, after.base? tree id = model.base? tree id) : after.Grounded tree := by
  -- The chains of bases are the same step by step, so a circle in one model is one in the other.
  have steps (k : Nat) (id : DeclarationId) :
      after.baseAfter tree k id = model.baseAfter tree k id := by
    induction k generalizing id with
    | zero => rfl
    | succ k ih => simp only [baseAfter, base, funext ih]
  intro id inside circle
  obtain ⟨k, atLeast, atMost, back⟩ := circle
  exact grounded id (size ▸ inside) ⟨k, atLeast, size ▸ atMost, steps k id ▸ back⟩

/-- The declarations stay related while no base changes. -/
theorem Related.congr {count : Nat} (related : model.Related tree count)
    (size : after.declarations.size = model.declarations.size)
    (extends' : ∀ id, after.base? tree id = model.base? tree id)
    (base : ∀ id, (after.declaration id).base = (model.declaration id).base)
    (mirrored : after.Mirrored) : after.Related tree count where
  size := size.trans related.size
  grounded := related.grounded.congr size extends'
  mirrored := mirrored
  -- A base that is noted is still the one that the schemas choose.
  chosen a b held := (extends' a).trans (related.chosen a b ((base a).symm.trans held))

end Model

/-- A later state of a model in which every declaration has the same part as before. -/
structure SamePart {α : Type} (part : Declaration → α) (before after : Model) : Prop where
  size : after.declarations.size = before.declarations.size
  same : ∀ id, part (after.declaration id) = part (before.declaration id)

/-- What neither a link nor a change inside a declaration writes stays the same. -/
theorem enduring_samePart {context : Context} {first : Model} {α : Type} {part : Declaration → α}
    (kept : ∀ (declaration : Declaration) base derived interfaces nested constants libraryTypes imports,
      part { declaration with base, derived, interfaces, nested, constants, libraryTypes, imports } =
        part declaration) :
    Enduring context first.declarations.size (SamePart part first) where
  -- A class is only linked in the fields that the part does not read, and so is work inside of it.
  size same := same.size
  aligned same aligned :=
    ⟨aligned.size.trans same.size, fun id =>
      (aligned.field part fun _ _ _ _ _ => kept _ _ _ _ _ _ _ _).trans (same.same id)⟩
  based same _ _ :=
    ⟨Model.size_based.trans same.size, fun id =>
      (Model.field_based part fun _ _ _ => kept _ _ _ _ _ _ _ _).trans (same.same id)⟩
  implemented same _ _ _ :=
    ⟨Model.size_implemented.trans same.size, fun id =>
      (Model.field_implemented part fun _ _ _ => kept _ _ _ _ _ _ _ _).trans (same.same id)⟩

/-- What besides no mark writes lasts. -/
theorem lasting_samePart {context : Context} {first : Model} {α : Type} {part : Declaration → α}
    (kept : ∀ (declaration : Declaration) base derived interfaces nested constants libraryTypes imports,
      part { declaration with base, derived, interfaces, nested, constants, libraryTypes, imports } =
        part declaration)
    (unmarked : ∀ (declaration : Declaration) isAnalysed hasVariants,
      part { declaration with isAnalysed, hasVariants } = part declaration) :
    Lasting context first.declarations.size (SamePart part first) where
  toEnduring := enduring_samePart kept
  marked {model id change} same marked := by
    refine ⟨Model.size_updateDeclaration.trans same.size, fun other => ?_⟩
    refine (Model.field_updateDeclaration part ?_).trans (same.same other)
    -- A mark is one of the two fields that the part does not read.
    rw [marked (model.declaration id)]
    exact unmarked _ _ _

/-- The resolution keeps the declarations related. -/
theorem lasting_related {context : Context} {count : Nat} :
    Lasting context count (Model.Related context.tree count) where
  size related := related.size
  -- Work inside a declaration writes no link, and no kind or schema that a base is chosen by.
  aligned related aligned :=
    related.congr aligned.size (fun _ => aligned.base?) (fun _ => aligned.base)
      (related.mirrored.congr (fun _ => aligned.derived) (fun _ => aligned.base)
        fun _ => aligned.interfaces)
  marked {model id change} related marked := by
    -- A mark writes no field but the two that no relation reads.
    have same {α : Type} (field : Declaration → α)
        (kept : ∀ (declaration : Declaration) isAnalysed hasVariants,
          field { declaration with isAnalysed, hasVariants } = field declaration)
        (other : DeclarationId) :
        field ((model.updateDeclaration id change).declaration other) =
          field (model.declaration other) := by
      refine Model.field_updateDeclaration field ?_
      rw [marked (model.declaration id)]
      exact kept _ _ _
    have base (other : DeclarationId) :
        (model.updateDeclaration id change).base? context.tree other =
          model.base? context.tree other :=
      Model.base?_congr Model.size_updateDeclaration
        (same Declaration.schema fun _ _ _ => rfl) (same Declaration.kind fun _ _ _ => rfl)
    have mirrored := related.mirrored.congr (same Declaration.derived fun _ _ _ => rfl)
      (same Declaration.base fun _ _ _ => rfl) (same Declaration.interfaces fun _ _ _ => rfl)
    exact related.congr Model.size_updateDeclaration base
      (same Declaration.base fun _ _ _ => rfl) mirrored
  based {model id base} related inside extends' := by
    rw [← related.size] at inside
    -- The base was chosen by the schemas, so it is a declaration that is there.
    have inside' := Model.inside_of_base? extends'
    -- Otherwise the class would be its own base, which a grounded model rules out.
    have different : id ≠ base := by
      rintro rfl
      exact related.grounded.not_transGen (.single extends')
    -- A base that was noted before was chosen in the same way.
    have only (other : DeclarationId) (held : (model.declaration id).base = some other) :
        other = base :=
      Option.some.inj ((related.chosen id other held).symm.trans extends')
    refine ⟨Model.size_based.trans related.size,
      related.grounded.congr Model.size_based fun _ => Model.base?_based,
      related.mirrored.based inside inside' different only, fun a b held => ?_⟩
    -- Noting a base changes no choice, so what is noted now is chosen as well.
    rw [Model.Extends, Model.base?_based]
    rw [Model.base_based inside] at held
    split at held
    · rename_i same
      cases held
      rw [same]
      exact extends'
    · exact related.chosen a b held
  implemented {model id interface} related inside inside' different := by
    -- An interface is neither noted nor chosen as a base, so only the mirrored lists change.
    rw [← related.size] at inside inside'
    exact related.congr Model.size_implemented (fun _ => Model.base?_implemented)
      (fun _ => Model.base_implemented) (related.mirrored.implemented inside inside' different)

/-- How declarations stand to each other before and after every resolution: derived classes are the
converse of what is noted, and what is noted as a base is one and runs in no circle. -/
structure Model.Kindred (tree : SchemaTree) (model : Model) : Prop where
  mirrored : model.Mirrored
  chosen : ∀ a b, (model.declaration a).base = some b → model.Extends tree a b
  acyclic : ∀ a, ¬Relation.TransGen (fun a b => (model.declaration a).base = some b) a a

/-- Where bases run in no circle, those that are noted do not either. -/
theorem Model.Related.kindred {tree : SchemaTree} {count : Nat} {model : Model}
    (related : model.Related tree count) : model.Kindred tree where
  mirrored := related.mirrored
  chosen := related.chosen
  acyclic _ around := related.grounded.not_transGen (Relation.TransGen.mono related.chosen _ _ around)

/-- Nothing is noted in a model as it was declared. -/
theorem Model.Declared.kindred {tree : SchemaTree} {model : Model} (declared : model.Declared) :
    model.Kindred tree := by
  -- As declared, no class has a base, an interface or a derived class.
  have base (a b : DeclarationId) : (model.declaration a).base ≠ some b := by
    rw [(declared.raw a).base]
    exact Option.some_ne_none b |>.symm
  refine ⟨⟨fun a b => ?_, fun a => ?_, fun a => ?_, fun a => ?_⟩,
    fun a b held => absurd held (base a b), fun a around => ?_⟩
  · simp [Specialises, (declared.raw b).derived, (declared.raw a).base,
      (declared.raw a).interfaces]
  · simp [(declared.raw a).derived]
  · simp [(declared.raw a).derived]
  · simp [(declared.raw a).interfaces]
  · -- A circle has a last step, and that would need a base.
    obtain ⟨b, -, held⟩ := Relation.TransGen.tail'_iff.mp around
    exact base b a held

namespace Modelling

variable {context : Context} {model : Model}

/-- A resolution keeps the kinship of declarations, whether it succeeds or fails. -/
theorem kindred_resolve (kindred : model.Kindred context.tree) :
    (lastState (resolve context) model).Kindred context.tree := by
  -- The check for circles comes first, and it changes nothing.
  cases found : model.circularBase? context.tree with
  | some id =>
    rw [lastState, resolve_of_circularBase? found]
    exact kindred
  | none =>
    -- Without a circle the model is grounded, which the rest of the resolution needs.
    have related : model.Related context.tree model.declarations.size :=
      ⟨rfl, Model.grounded_of_circularBase? found, kindred.mirrored, kindred.chosen⟩
    have kept := lasting_related.resolveAll (fun id member => Model.mem_ids.mp member) model related
    -- The relation holds in the end of both outcomes, with whatever the run has reached.
    have last := (kept.imp (fun _ _ related => related) fun _ _ failure => failure.1).lastState
    rw [lastState, resolve_of_grounded found]
    exact last.kindred

/-- However often the resolution of documents is tried, and however each try ends: the classes derived
from a class are those that extend or implement it, each of them once and never the class itself, and
no class extends itself over its bases. -/
theorem mirrored_resolve {context : Context} {roots : List RootSchema} :
    Ends (roots.forM (declareRoot context)) {}
      (fun _ model => ∀ tries : Nat,
        ((lastState (resolve context))^[tries] model).Mirrored ∧
          ∀ id, ¬Relation.TransGen
            (fun a b =>
              (((lastState (resolve context))^[tries] model).declaration a).base = some b) id id)
      (fun _ => True) := by
  refine declared_roots.mono fun _ model declared tries => ?_
  -- A try that fails leaves the kinship whole too, so that the next may start from there.
  have kindred : ((lastState (resolve context))^[tries] model).Kindred context.tree := by
    induction tries with
    | zero => exact declared.kindred
    | succ tries ih =>
      rw [Function.iterate_succ_apply']
      exact kindred_resolve ih
  exact ⟨kindred.mirrored, kindred.acyclic⟩

end Modelling

end SchemaClasses
