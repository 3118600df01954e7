import SchemaClasses.Proofs.Catalogue.Projection
import SchemaClasses.Proofs.Resolution.Mergers

/-! What is left of a property of a class in its variants: one that a branch does not mention looks as it
does in the class, but for the checks of a class that is nested for it; and one that may be null may still
be, unless only the branch requires it. -/

namespace SchemaClasses

namespace Model

variable {model : Model} {language : Language} {own source : RecordId}

/-- The type of a record is told by its shape and its items. -/
theorem typeOf_congr
    (shape : (model.ledger.record own).shape = (model.ledger.record source).shape)
    (items : (model.ledger.record own).items = (model.ledger.record source).items) :
    model.typeOf own = model.typeOf source := by
  rw [typeOf, typeOf, typeWithin_succ, typeWithin_succ, shape, items]

/-- Whether a property looks as another one of which it is a copy. The checks of the other one may be left
to a class that was made from it; no class is made from the copy, which shows them. -/
structure Resembles (model : Model) (language : Language) (own source : RecordId) : Prop where
  type : (model.propertyOf language own).type = (model.propertyOf language source).type
  items : (model.propertyOf language own).items = (model.propertyOf language source).items
  checks : model.ownsClass source = false →
    (model.propertyOf language own).checks = (model.propertyOf language source).checks
  repeated : model.ownsClass source = true →
    (model.propertyOf language source).checks = [] ∧
      (model.propertyOf language own).checks = (model.ledger.checks source).items

/-- A copy of an analysed record, its checks included, from which no class was made looks as the record. -/
theorem resembles_of_copy
    (shape : (model.ledger.record own).shape = (model.ledger.record source).shape)
    (items : (model.ledger.record own).items = (model.ledger.record source).items)
    (checks : model.ledger.checks own = model.ledger.checks source)
    (unowned : model.ownsClass own = false) : model.Resembles language own source where
  type := typeOf_congr shape items
  items := by simp only [propertyOf, itemsOf?, shape, items]
  checks plain := by simp [propertyOf, ownChecks, unowned, plain, checks]
  repeated owned := by simp [propertyOf, ownChecks, unowned, owned, checks]

/-- No class was made from a record that is younger than its type, whatever classes there are by now. -/
theorem ownsClass_of_fresh {context : Context} {before after : Model} (sane : before.Sane context)
    (grows : ∀ id, (before.declaration id).Grows (after.declaration id))
    (typed : (after.ledger.record own).typeRef = (before.ledger.record source).typeRef)
    (fresh : before.ledger.size ≤ own.index) : after.ownsClass own = false := by
  unfold ownsClass
  split
  · rename_i owner index held
    -- The class was there when the type was decided, and so was the record that it was made from.
    obtain ⟨nested, there⟩ : ∃ nested, (before.declaration owner).nested[index]? = some nested := by
      -- The type suits the source, and so there is a class for it.
      cases sane.suits source _ (typed.symm.trans held) with
      | origin there made same => exact ⟨_, there⟩
      | target there refers same => exact ⟨_, there⟩
    have older := (sane.nested owner index nested there).1
    -- A class keeps its record, and an older record is not the younger one.
    rw [(grows owner).getElem?_nested there, Option.any_some, beq_eq_false_iff_ne]
    rintro rfl
    exact absurd older (Nat.not_lt.mpr fresh)
  · rfl

end Model

/-- A variant in which the properties of its class that the branch does not mention look as in the class. -/
def Synthesis.Resembles (language : Language) (synthesis : Synthesis) : Prop :=
  ∀ own ∈ (synthesis.after.ledger.record synthesis.variant).properties,
    ∀ source ∈ (synthesis.before.ledger.record synthesis.container).properties,
    synthesis.after.ledger.name own = synthesis.before.ledger.name source →
    synthesis.after.ledger.name own ∉ synthesis.before.ledger.names synthesis.branch →
    synthesis.after.Resembles language own source

/-- A variant that merges class and branch has properties that look as those of the class. -/
theorem Synthesis.Merges.resembles {context : Context} {language : Language} {synthesis : Synthesis}
    (merges : synthesis.Merges) (sane : synthesis.before.Sane context)
    (grows : ∀ id, (synthesis.before.declaration id).Grows (synthesis.after.declaration id)) :
    synthesis.Resembles language := by
  intro own member source owned same free
  have record := merges.copied own member source owned same
  have kept := merges.kept source (.inr owned)
  have known : synthesis.after.ledger.name own ∈ synthesis.before.ledger.names synthesis.container := by
    rw [same]
    exact List.mem_map_of_mem owned
  -- The copy has the fields and checks of its source, and no class was made from it.
  refine Model.resembles_of_copy ?_ ?_ ?_ ?_
  · rw [record, kept.1]
  · rw [record, kept.1]
  · rw [merges.inherited own member source owned same free, kept.2]
  · exact Model.ownsClass_of_fresh sane grows (by rw [record])
      (Nat.le_of_lt (merges.fresh own member known))

namespace Modelling

variable {context : Context} {first start made model last : Model} {site : Site} {floor : Nat}
variable {container branch variant property id : RecordId} {language : Language}

/-- The variant that is made for a branch resembles its class. -/
theorem Staging.resembles (staging : Staging context first site floor container start)
    (held : branch ∈ (start.ledger.record container).oneOf)
    (absent : (start.declaration site.owner).findNested? (start.ledger.record branch).schema none = none) :
    Ends (Modelling.addVariant context site container branch) start
      (fun _ last => (Synthesis.mk site container branch start last).Resembles language)
      (fun _ => True) := by
  -- The run merges both and keeps what was declared, so that the general statement applies.
  refine ((staging.merges held absent).and
    (serves_addVariant staging.toHosting (staging.inBranches held) held)).imp (fun _ last done => ?_)
      fun _ _ => trivial
  obtain ⟨merges, round, -⟩ := done
  exact merges.resembles staging.sane round.onward.grows

/-- A property that a branch does not mention looks the same in the variant. For every run, and for each
variant that it makes, a property with a name of the class that the branch lacks has the type and the
items that it has in the class, and the checks that it has there; unless a class was made from it, which
performs the checks, so that they are not shown in the class, but in the variant. -/
theorem resembles_build {roots : List RootSchema} :
    Ends (build context roots) {}
      (fun _ last => ∃ told, synthesizingBuild context roots {} = .ok told last ∧
        ∀ synthesis ∈ told, synthesis.Resembles language)
      (fun _ => True) :=
  ends_synthesizingBuild fun _ {_ _ _ _ _} staging held absent => staging.resembles held absent

end Modelling

/-! Properties that may be null. -/

/-- A later state of a record, which still may be null if it might before. -/
def Record.Concedes (before after : Record) : Prop :=
  before.nullable = some true → after.nullable = some true

/-- A record that is reconciled may still be null. -/
theorem Record.concedes_reconciled {record : Record} {required : List String} :
    record.Concedes (record.reconciled required) := by
  intro nullable
  by_cases listed : record.isListed required = true
  · rw [reconciled_of_isListed listed]
    exact nullable
  · rw [reconciled_of_not_isListed listed, if_neg fun bare => bare.1 nullable]
    exact nullable

namespace Ledger

variable {a b c before after ledger : Ledger} {variant property id : RecordId}
variable {name : String} {names rest already : List String}

/-- A later ledger in which all that could be null still may. -/
def Concedes (before after : Ledger) : Prop :=
  ∀ id, (before.record id).Concedes (after.record id)

theorem Concedes.refl (ledger : Ledger) : ledger.Concedes ledger := fun _ nullable => nullable

theorem Concedes.trans (first : a.Concedes b) (second : b.Concedes c) : a.Concedes c :=
  fun id nullable => second id (first id nullable)

/-- A later ledger in which a variant requires names: of its properties, those are no longer nullable that
it did not require already, and all others stay as they are. -/
structure Relaxes (variant : RecordId) (names already : List String) (before after : Ledger) : Prop where
  kept : ∀ id, (∀ name ∈ names, name ∉ already → before.name id ≠ some name) →
    (after.record id).nullable = (before.record id).nullable
  cleared : ∀ id ∈ (before.record variant).properties, id.index < before.size →
    ∀ name ∈ names, name ∉ already → before.name id = some name → (after.record id).nullable = none

/-- A later ledger in which it is decided which properties of a variant may be null, as it requires names
that it did not already. -/
structure DecidesNull (variant : RecordId) (names already : List String) (before after : Ledger) : Prop where
  properties : (after.record variant).properties = (before.record variant).properties
  name : ∀ id, after.name id = before.name id
  conceded : ∀ id, id ≠ variant → (∀ name ∈ names, name ∉ already → before.name id ≠ some name) →
    (before.record id).Concedes (after.record id)
  cleared : ∀ id, id ≠ variant → id ∈ (before.record variant).properties → id.index < before.size →
    ∀ name ∈ names, name ∉ already → before.name id = some name → (after.record id).nullable = none

namespace Relaxes

/-- Requiring names changes nothing else. -/
theorem of_same (same : ∀ id, (after.record id).nullable = (before.record id).nullable)
    (known : ∀ name ∈ names, name ∉ already → ∀ id ∈ (before.record variant).properties,
      before.name id ≠ some name) : Relaxes variant names already before after where
  kept id _ := same id
  cleared id held _ name member new called := absurd called (known name member new id held)

/-- One name after the other. -/
theorem cons (first : a.Relaxes variant [name] already b) (joins : a.JoinsRequired variant b)
    (second : b.Relaxes variant rest already c) : a.Relaxes variant (name :: rest) already c := by
  have named (id : RecordId) : b.name id = a.name id := by
    rw [Ledger.name, joins.record id]
    -- Joining a name neither renames a record nor gives the variant another property.
    rfl
  have properties : (b.record variant).properties = (a.record variant).properties := by
    rw [joins.record variant]
  refine ⟨fun id free => ?_, fun id held there called member new same => ?_⟩
  · -- What is free of all names is kept by both steps.
    rw [second.kept id fun other member new => named id ▸ free other (List.mem_cons_of_mem _ member) new]
    refine first.kept id fun other member new => free other ?_ new
    exact List.mem_singleton.mp member ▸ List.mem_cons_self
  · -- The name comes again, or it was the first one only.
    by_cases later : called ∈ rest
    · exact second.cleared id (properties ▸ held) (joins.size ▸ there) called later new
        ((named id).trans same)
    · have first' := first.cleared id held there called
        (List.mem_singleton.mpr ((List.mem_cons.mp member).resolve_right later)) new same
      -- No later name is that of the record, so it stays cleared.
      refine (second.kept id fun other listed _ same' => later ?_).trans first'
      rw [named id, same] at same'
      exact Option.some.inj same' ▸ listed

end Relaxes

end Ledger

/-- Whether a property of a variant is required by the branch, but not by the class. -/
def Synthesis.IsNew (synthesis : Synthesis) (own : RecordId) : Prop :=
  ∃ name ∈ (synthesis.before.ledger.record synthesis.branch).required,
    name ∉ (synthesis.before.ledger.record synthesis.container).required ∧
      synthesis.after.ledger.name own = some name

/-- A variant of which all properties that might be null still may, unless only the branch requires them. -/
structure Synthesis.Concedes (synthesis : Synthesis) : Prop where
  copied : ∀ own ∈ (synthesis.after.ledger.record synthesis.variant).properties,
    ∀ source ∈ (synthesis.before.ledger.record synthesis.container).properties,
    synthesis.after.ledger.name own = synthesis.before.ledger.name source → ¬synthesis.IsNew own →
    (synthesis.before.ledger.record source).Concedes (synthesis.after.ledger.record own)
  joined : ∀ own ∈ (synthesis.after.ledger.record synthesis.variant).properties,
    synthesis.after.ledger.name own ∉ synthesis.before.ledger.names synthesis.container →
    ¬synthesis.IsNew own →
    (synthesis.before.ledger.record own).Concedes (synthesis.after.ledger.record own)
  /-- What only the branch requires may not be null, whether or not the schema says that it may. -/
  cleared : ∀ own ∈ (synthesis.after.ledger.record synthesis.variant).properties, synthesis.IsNew own →
    (synthesis.after.ledger.record own).nullable = none

namespace Modelling

variable {context : Context} {first start made model last : Model} {site : Site} {floor : Nat}
variable {owner : DeclarationId} {scope : Set RecordId}
variable {container branch variant property id : RecordId} {names already : List String}

/-- The steps of an analysis never take from a record that it may be null. -/
theorem Step.concedes (taken : Step context owner scope model last) :
    model.ledger.Concedes last.ledger := by
  intro id
  cases taken with
  -- Only a reconciliation writes whether a record may be null, and then only that it may.
  | mark acts marks =>
    refine Ledger.rel_update (fun _ nullable => nullable) ?_
    cases marks with
    | shaped first typed => exact fun nullable => nullable
    | reconciled required => exact Record.concedes_reconciled
  | type acts unset suits shaped => exact (Ledger.field_update Record.nullable rfl).trans
  | plan acts shape => exact (Model.field_plan Record.nullable fun _ _ _ => rfl).trans
  | nest acts made places => exact fun nullable => nullable
  | note other notes => exact fun nullable => nullable

/-- So do any number of steps. -/
theorem Steps.concedes (steps : Steps context owner scope model last) :
    model.ledger.Concedes last.ledger := by
  induction steps with
  | refl => exact .refl _
  | tail _ taken ih => exact ih.trans taken.concedes

/-- Nor does a property of a branch when it joins a variant. -/
theorem concedes_joinProperty (filling : Filling context first site floor variant model)
    (inside : property ∈ first.inBranches site.owner)
    (owned : property ∈ (first.ledger.record branch).properties) :
    Ends (joinProperty context site variant property) model
      (fun _ last => model.ledger.Concedes last.ledger) (fun _ => True) := by
  have positive := filling.surveyed.sound.negationOf_eq_none (.inl (.inl owned))
  simp only [joinProperty, ends_bind, ends_record, ends_ledger]
  have analysed := steps_analyseAny filling.toResolving inside filling.placed positive
    (.property ((model.ledger.record property).name.getD ""))
  refine analysed.mono fun _ middle steps => ?_
  have analysed : model.ledger.Concedes middle.ledger := Steps.concedes steps
  -- A property of a known name passes on its checks, a new one joins the list of the variant.
  split
  · rw [ends_survey, ends_modify]
    exact analysed
  · rw [ends_updateRecord]
    exact analysed.trans fun id => (Ledger.field_update Record.nullable rfl).trans

/-- Nor do all properties of a branch. -/
theorem concedes_joinProperties
    (pouring : Pouring context first site floor container branch variant made) :
    Ends ((made.ledger.record branch).properties.forM (joinProperty context site variant)) made
      (fun _ last => made.ledger.Concedes last.ledger) (fun _ => True) := by
  have old := pouring.surveyed_source (.inr (.inl rfl))
  -- The branch holds the properties that it was surveyed with.
  rw [(pouring.ledger.record branch old).properties_eq]
  refine (Ends.forM (fun model => Round context first site.owner floor made model ∧
    made.ledger.Concedes model.ledger) ⟨.refl made, .refl _⟩ fun property owned model kept => ?_).mono
      fun _ _ kept => kept.2
  -- Each round starts where the one before has left everything in its place.
  have inside : property ∈ first.inBranches site.owner :=
    Model.scope_subset_inBranches pouring.inBranches (Ledger.mem_scope_of_property owned)
  have filling : Filling context first site floor variant model :=
    Course.ready kept.1 pouring.toFilling
  have joined := (takes_joinProperty inside owned model filling).and
    (concedes_joinProperty filling inside owned)
  exact joined.imp (fun _ _ done => ⟨kept.1.trans done.1, kept.2.trans done.2⟩) fun _ _ => trivial

/-- A name that a branch requires joins its variant. -/
theorem relaxes_joinRequired {name : String} (nodup : (made.ledger.names variant).Nodup) :
    Ends (joinRequired variant already name) made
      (fun _ last => made.ledger.JoinsRequired variant last.ledger ∧
        made.ledger.Relaxes variant [name] already last.ledger)
      (fun _ => True) := by
  have required (ledger : Ledger) (id : RecordId) :
      ((ledger.update variant (·.addRequired name)).record id).nullable = (ledger.record id).nullable :=
    Ledger.field_update Record.nullable rfl
  simp only [joinRequired]
  split
  · -- The name was not required, so that it may clear a property.
    rename_i lacking
    rw [ends_bind, ends_ledger]
    split
    · rename_i held found
      have member := List.mem_of_find?_eq_some found
      have named := List.find?_some found
      replace named : made.ledger.name held = some name := beq_iff_eq.mp named
      rw [ends_bind, ends_updateRecord, ends_updateRecord]
      refine ⟨(Ledger.JoinsRequired.relax member).trans .require, fun id free => ?_,
        fun id listed there other new _ called => ?_⟩
      · -- The property that is cleared has the name, which the given one has not.
        have apart : id ≠ held := by
          rintro rfl
          exact free name (by simp) (by simpa using lacking) named
        rw [Model.ledger_updateRecord, required, Model.ledger_updateRecord,
          Ledger.record_update_of_ne apart]
      · -- Names are told apart, so the property of the name is the one that was found.
        obtain rfl := List.mem_singleton.mp new
        obtain rfl := List.inj_on_of_nodup_map nodup listed member (called.trans named.symm)
        rw [Model.ledger_updateRecord, required, Model.ledger_updateRecord, Ledger.record_update_self there]
    · -- No property has the name, so there is none to be cleared.
      rename_i absent
      rw [ends_updateRecord]
      refine ⟨.require, .of_same (required _) fun other new _ id held called => ?_⟩
      obtain rfl := List.mem_singleton.mp new
      exact Ledger.not_mem_names (Option.eq_none_iff_forall_ne_some.mpr absent)
        (List.mem_map.mpr ⟨id, held, called⟩)
  · -- The name was required, and then it is just added once more.
    rename_i known
    rw [ends_updateRecord]
    refine ⟨.require, .of_same (required _) fun other new lacking => ?_⟩
    obtain rfl := List.mem_singleton.mp new
    exact absurd (by simpa using known) lacking

/-- All names that a branch requires join its variant. -/
theorem relaxes_joinAllRequired (nodup : (made.ledger.names variant).Nodup) :
    Ends (names.forM (joinRequired variant already)) made
      (fun _ last => made.ledger.Relaxes variant names already last.ledger) (fun _ => True) := by
  induction names generalizing made with
  | nil => exact .of_same (fun _ => rfl) fun _ member => absurd member List.not_mem_nil
  | cons name rest ih =>
    rw [List.forM, ends_bind]
    refine (relaxes_joinRequired nodup).mono fun _ middle first => ?_
    obtain ⟨joins, relaxes⟩ := first
    -- The names of the variant stay different from each other.
    have names : middle.ledger.names variant = made.ledger.names variant := by
      refine Ledger.names_congr ?_ fun property _ => ?_
      · rw [joins.record variant]
      · rw [Ledger.name, joins.record property]
        rfl
    exact (ih (names ▸ nodup)).mono fun _ last relaxes' => relaxes.cons joins relaxes'

/-- Required names join a variant, its own checks are planned, and its properties are reconciled. -/
theorem decides_roundVariant (nodup : (made.ledger.names variant).Nodup)
    (present : variant ∈ made.everywhere) :
    Ends (do
        names.forM (joinRequired variant already)
        plan context owner variant .object
        reconcileRequired variant) made
      (fun _ last => made.ledger.DecidesNull variant names already last.ledger) (fun _ => True) := by
  rw [ends_bind]
  refine ((ends_joinRequired.and (ends_joinRequired_required present)).and
    (relaxes_joinAllRequired nodup)).imp (fun _ joined done => ?_) fun _ _ => trivial
  obtain ⟨⟨⟨-, joins⟩, required⟩, relaxes⟩ := done
  -- To join names is to rename nothing.
  have named (id : RecordId) : joined.ledger.name id = made.ledger.name id := by
    rw [Ledger.name, joins.record id]
    rfl
  refine closes_variant.mono fun _ last closed => ⟨?_, fun id => ?_, fun id apart free nullable => ?_,
    fun id apart held there name member new called => ?_⟩
  · rw [closed.field Record.properties fun _ _ _ _ _ => rfl, joins.record variant]
  · -- The closing changes properties of the variant only in whether they are required and may be
    -- null.
    exact (closed.field Record.name (fun _ _ _ _ _ => rfl) id).trans (named id)
  · -- The record was nullable when the names had joined, and stays so.
    have still : (joined.ledger.record id).nullable = some true := by
      rw [relaxes.kept id free]
      exact nullable
    rcases closed.aside id apart with same | ⟨-, same⟩
    · rw [same]
      exact still
    · rw [same]
      exact Record.concedes_reconciled still
  · have cleared := relaxes.cleared id held there name member new called
    rcases closed.aside id apart with same | ⟨-, same⟩
    · rw [same]
      exact cleared
    · -- The variant requires the name by then, so that nothing need stand in for the property.
      have listed : (joined.ledger.record id).isListed (joined.ledger.record variant).required = true := by
        rw [Record.isListed, show (joined.ledger.record id).name = some name from (named id).trans called,
          Option.any_some, required, foldl_addNew]
        by_cases known : name ∈ (made.ledger.record variant).required
        · simp [known]
        · simp [known, member]
      rw [same, Record.reconciled_of_isListed listed]
      exact cleared

/-- When a variant takes in its branch, its properties are analysed, and then it is decided which of them
may be null. -/
theorem decides_fillVariant
    (pouring : Pouring context first site floor container branch variant made) :
    Ends (fillVariant context site container branch variant) made
      (fun _ last => ∃ joined : Model, made.ledger.Concedes joined.ledger ∧
        made.ledger.size ≤ joined.ledger.size ∧
        joined.ledger.DecidesNull variant (made.ledger.record branch).required
          (made.ledger.record container).required last.ledger)
      (fun _ => True) := by
  simp only [fillVariant, ends_bind, ends_record]
  refine ((ends_joinProperties pouring).and (concedes_joinProperties pouring)).imp (fun _ joined done => ?_)
    fun _ _ => trivial
  obtain ⟨⟨round, sole, all, split, poured⟩, concedes⟩ := done
  -- All properties of the branch have joined, and the variant is filled but not closed.
  have filling : Filling context first site floor variant joined := Course.ready round pouring.toFilling
  have own : variant ∈ joined.everywhere :=
    Nat.lt_of_lt_of_le (pouring.present_of (.inl rfl)) round.onward.size_le
  have decides := @decides_roundVariant context joined site.owner variant
    (joined.ledger.record branch).required (joined.ledger.record container).required
    (filling.named.nodup variant) own
  have closes := decides.mono fun _ last decided =>
    (⟨joined, concedes, round.onward.size_le, decided⟩ : ∃ joined : Model,
      made.ledger.Concedes joined.ledger ∧ made.ledger.size ≤ joined.ledger.size ∧
        joined.ledger.DecidesNull variant _ _ last.ledger)
  -- The names are read from branch and container, which are as they were at the start.
  simp only [ends_bind] at closes
  rw [← (poured.kept branch (.inr (.inl rfl))).1, ← (poured.kept container (.inl rfl)).1]
  exact closes

/-- The variant that is made for a branch keeps which properties may be null, unless only the branch
requires them. -/
theorem Staging.concedes (staging : Staging context first site floor container start)
    (held : branch ∈ (start.ledger.record container).oneOf)
    (absent : (start.declaration site.owner).findNested? (start.ledger.record branch).schema none = none) :
    Ends (Modelling.addVariant context site container branch) start
      (fun _ last => (Synthesis.mk site container branch start last).Concedes) (fun _ => True) := by
  obtain ⟨held', below⟩ := staging.branch_of held
  refine staging.ends_addVariant held absent fun {index made} drafted pouring nested => ?_
  have takes := @takes_fillVariant context first floor branch ⟨start.ledger.size⟩ container
    { site with scope := some index } (staging.inBranches held) made pouring.toFilling
  refine ((takes.and (ends_fillVariant_merged pouring)).and (decides_fillVariant pouring)).imp
    (fun _ last done => ?_) fun _ _ => trivial
  -- The variant merges the properties of both and decides which of them may be null.
  obtain ⟨⟨round, merged⟩, joined, concedes, there, decides⟩ := done
  rw [drafted.record branch (staging.surveyed_of below).2,
    drafted.record container (staging.surveyed_of staging.member).2] at decides
  -- Behind the run, the variant is still in its place.
  have filling : Filling context first { site with scope := some index } floor ⟨start.ledger.size⟩ last :=
    Course.ready round pouring.toFilling
  have merges := drafted.merges merged staging held filling.ledger
    (nested.imp fun _ => (round.onward.grows site.owner).getElem?_nested)
  have settles : ∀ property ∈ (first.ledger.record branch).properties,
      last.ledger.name property = first.ledger.name property := fun property owned =>
    (filling.ledger.record property (pouring.surveyed_property owned)).name_eq
  -- A property of the variant was made with it or surveyed with the branch.
  have inside {own : RecordId} (member : own ∈ (last.ledger.record ⟨start.ledger.size⟩).properties) :
      own ∈ made.everywhere ∧ own ≠ ⟨start.ledger.size⟩ := by
    rcases merged.cases member with copy | ⟨owned, -⟩
    · exact ⟨pouring.present_of (.inr copy), (pouring.copies own copy).2⟩
    · have surveyed := pouring.surveyed_property owned
      refine ⟨Nat.lt_of_lt_of_le surveyed pouring.ledger.size_le, ?_⟩
      rintro rfl
      exact absurd surveyed (Nat.not_lt.mpr (pouring.late_of (.inl rfl)))
  -- From where the variant is drafted on, only what is new ceases to be nullable.
  have onward {own : RecordId} (member : own ∈ (last.ledger.record ⟨start.ledger.size⟩).properties)
      (old : ¬(Synthesis.mk site container branch start last).IsNew own) :
      (made.ledger.record own).Concedes (last.ledger.record own) := fun nullable =>
    decides.conceded own (inside member).2 (fun name member new called =>
      old ⟨name, member, new, (decides.name own).trans called⟩) (concedes own nullable)
  refine ⟨fun own member source owned same old nullable => ?_, fun own member free old nullable => ?_,
    fun own member new => ?_⟩
  · -- A copy has whatever its source has.
    obtain ⟨-, -, record, -⟩ := drafted.source_of merged staging settles member owned same
    refine onward member old ?_
    rw [record]
    exact nullable
  · -- A property of the branch is the record that was surveyed.
    refine onward member old ?_
    rw [drafted.record own (staging.enclosed branch own
      (Record.mem_children.mpr (.inl (merges.joined own member free))))]
    exact nullable
  · -- A name that only the branch requires clears its property.
    obtain ⟨name, required, lacking, called⟩ := new
    exact decides.cleared own (inside member).2 (decides.properties ▸ member)
      (Nat.lt_of_lt_of_le (inside member).1 there) name required lacking
      ((decides.name own).symm.trans called)

/-- What might be null before a variant was made still may in the variant, unless only the branch requires
it. For every run, and for each variant that it makes: a property of the class or of the branch alone that
may be null may be null in the variant, if the branch does not require it or the class does so too; and
any property that the branch requires and the class does not may not be null, even where the schema says
that it may. -/
theorem concedes_build {roots : List RootSchema} :
    Ends (build context roots) {}
      (fun _ last => ∃ told, synthesizingBuild context roots {} = .ok told last ∧
        ∀ synthesis ∈ told, synthesis.Concedes)
      (fun _ => True) :=
  ends_synthesizingBuild fun _ {_ _ _ _ _} staging held absent => staging.concedes held absent

end Modelling

end SchemaClasses
