import SchemaClasses.Proofs.Resolution.Comparison
import SchemaClasses.Proofs.Resolution.Trails

/-! The plain recursions of a resolution: members and bases are followed for as long as there are some
that were not analysed, and nested classes are visited for as long as there are more. They come to an
end within a known depth, and they do what the resolution does. -/

namespace SchemaClasses

namespace Modelling

/-- The analysis of a record, by a recursion that goes so many records deep at most: `beyond` is what
happens where it is asked to go deeper. Only records that have a shape are not entered. -/
def analyseWithin (context : Context) (beyond : Modelling Unit) : Nat → Analysis
  | 0, _, _, _ => beyond
  | depth + 1, site, id, role => do
    if (← record id).shape.isNone then
      linkTarget context site.owner id
      let shape ← develop context (analyseWithin context beyond depth) site id role
        (context.classify (← ledger) id role.promotesEnums)
      updateRecord id fun record => { record with shape := some shape }
      plan context site.owner id shape
      planNegation context site.owner id

section

variable (context : Context) (analyse : Analysis)

/-- The members of a class, each analysed in a given way. -/
def analyseClassBy (id : DeclarationId) : Modelling Unit := do
  let held ← declaration id
  let base ← openClass context id held.record
  analyseObject context analyse ⟨id, none⟩ held.record base

/-- The members of a declaration, each analysed in a given way. -/
def analyseDeclarationBy (id : DeclarationId) : Modelling Unit := do
  let held ← declaration id
  match held.kind with
  | .enumeration =>
    updateRecord held.record fun record => { record with shape := some .identifierEnum }
  | .interface => updateRecord held.record fun record => { record with shape := some .untyped }
  | .concrete => analyseClassBy context analyse id

/-- A declaration analysed after its base, by a recursion over so many bases at most. -/
def resolveMembersWithin (beyond : Modelling Unit) : Nat → DeclarationId → Modelling Unit
  | 0, _ => beyond
  | depth + 1, id => do
    if !(← declaration id).isAnalysed then
      updateDeclaration id fun declaration => { declaration with isAnalysed := true }
      ((← get).base? context.tree id).forM (resolveMembersWithin beyond depth)
      analyseDeclarationBy context analyse id

/-- A branch of a union, the members of its class analysed in a given way. -/
def resolveBranchBy (owner : DeclarationId) (branch : RecordId) : Modelling Unit := do
  let origin := (← record branch).schema
  match origin.bind ((← get).declarationFor? context.tree) with
  | some implementor =>
    if implementor ≠ owner then
      updateDeclaration implementor (·.addInterface (.declaration owner))
      updateDeclaration owner (·.addDerived implementor)
      importDeclaration implementor owner
  | none =>
    let isKnown := ((← declaration owner).findNested? origin none).isSome
    if !isKnown && context.classify (← ledger) branch false == .object then
      let index ← pushVariant context owner none branch branch (.declaration owner)
      let _ ← settle branch (.nested owner index)
      analyseObject context analyse ⟨owner, some index⟩ branch none

/-- A property of a branch that joins a variant, analysed in a given way. -/
def joinPropertyBy (site : Site) (variant property : RecordId) : Modelling Unit := do
  let name := (← record property).name.getD ""
  analyse site property (.property name)
  let ledger ← ledger
  match ledger.property? variant name with
  | some existing =>
    survey (modify fun survey =>
      { survey with
        ledger := survey.ledger.updateChecks existing (·.extend (ledger.checks property)) })
  | none =>
    updateRecord variant fun record => { record with properties := record.properties ++ [property] }

/-- The variant of a class for a branch, its properties analysed in a given way. -/
def addVariantBy (site : Site) (container branch : RecordId) : Modelling Unit := do
  let origin := (← record branch).schema
  if ((← declaration site.owner).findNested? origin none).isNone then
    let variant ← copyForVariant container origin
    let implements := match site.scope with
      | some index => ClassRef.nested site.owner index
      | none => .declaration site.owner
    let index ← pushVariant context site.owner site.scope variant branch implements
    let _ ← settle variant (.nested site.owner index)
    (← record branch).properties.forM
      (joinPropertyBy analyse { site with scope := some index } variant)
    let already := (← record container).required
    (← record branch).required.forM (joinRequired variant already)
    plan context site.owner variant .object
    reconcileRequired variant

/-- The variants of a class, their properties analysed in a given way. -/
def addVariantsBy (site : Site) (container : RecordId) : Modelling Unit := do
  (← record container).oneOf.forM (addVariantBy context analyse site container)

/-- The variants of the nested classes from one of them on, by a loop that goes round so many times at
most. It ends where there is no class left. -/
def addNestedVariantsWithin (beyond : Modelling Unit) (owner : DeclarationId) :
    Nat → Nat → Modelling Unit
  | 0, _ => beyond
  | depth + 1, index => do
    match (← declaration owner).nested[index]? with
    | none => pure ()
    | some nested =>
      if nested.kind == .concrete && !nested.isVariant then
        addVariantsBy context analyse ⟨owner, some index⟩ nested.record
      addNestedVariantsWithin beyond owner depth (index + 1)

/-- The branches of a declaration and of the classes nested in it, by a loop that goes round so many
times at most. -/
def resolveVariantsWithin (beyond : Modelling Unit) (depth : Nat) (id : DeclarationId) :
    Modelling Unit := do
  let declared ← declaration id
  if !declared.hasVariants then
    updateDeclaration id fun declaration => { declaration with hasVariants := true }
    if declared.kind ≠ .enumeration then
      match declared.kind with
      | .interface =>
        (← record declared.record).oneOf.forM (resolveBranchBy context analyse id)
      | _ => addVariantsBy context analyse ⟨id, none⟩ declared.record
      addNestedVariantsWithin context analyse beyond id depth 0

end

/-- All declarations, by recursions that go so deep and loops that go round so many times at most. -/
def resolveWithin (context : Context) (beyond : Modelling Unit) (depth : Nat) : Modelling Unit := do
  let model ← get
  if let some id := model.circularBase? context.tree then
    throw (.circularBase (model.declaration id).qualifiedName)
  let analyse := analyseWithin context beyond depth
  model.ids.forM (resolveMembersWithin context analyse beyond depth)
  model.ids.forM (resolveVariantsWithin context analyse beyond depth)

variable {context : Context} {first start : Model} {owner : DeclarationId} {site : Site}
variable {id : RecordId} {low depth : Nat} {beyond : Modelling Unit}

/-- Two ways to analyse records do the same on those of a declaration from a number on, along trails. -/
def Analysis.Tracks (analyse analyse' : Analysis) (context : Context) (first : Model)
    (owner : DeclarationId) (low : Nat) : Prop :=
  ∀ (site : Site) (id : RecordId) (role : Role) (start : Model), site.owner = owner →
    site.Stands first start → id ∈ first.realm owner → low ≤ id.index →
    Modelling.Tracks context first start (analyse site id role) (analyse' site id role)

section

variable {inner inner' : Analysis}

/-- A property is analysed alike, and compared with its base. -/
theorem tracks_analyseProperty (stands : site.Stands first start)
    (alike : inner.Tracks inner' context first site.owner low) {base : Option RecordId} {property : RecordId}
    (member : property ∈ first.realm site.owner) (above : low ≤ property.index) :
    Tracks context first start (analyseProperty inner site base property)
      (analyseProperty inner' site base property) := by
  refine .record (.ledger ?_)
  dsimp only
  cases base.bind (start.ledger.property? · ((start.ledger.record property).name.getD "")) with
  -- A property without a base is only analysed.
  | none =>
    exact TracksTo.bind (alike site property _ start rfl stands member above) fun _ _ _ _ =>
      .pure trivial
  | some baseProperty =>
    -- The nested class of the base comes first, as it does in the other run.
    refine TracksTo.bind tracks_inheritNestedClass fun _ middle trail _ => ?_
    refine TracksTo.bind (alike site property _ middle rfl (trail.stands stands) member above)
      fun _ _ _ _ => ?_
    exact tracks_compareWithBase

/-- The members of an object are analysed alike. -/
theorem tracks_analyseObject (stands : site.Stands first start)
    (alike : inner.Tracks inner' context first site.owner low) (member : id ∈ first.realm site.owner)
    (above : low ≤ id.index + 1) {base : Option RecordId} :
    Tracks context first start (analyseObject context inner site id base)
      (analyseObject context inner' site id base) := by
  -- Whatever lies inside the record belongs to the declaration and lies behind it.
  have inside {middle : Model} (arranged : first.Arranged middle) {child : RecordId}
      (held : child ∈ (middle.ledger.record id).children) :
      child ∈ first.realm site.owner ∧ low ≤ child.index :=
    (arranged.mem_realm stands.declared member held).imp_right fun behind =>
      Nat.le_trans above behind
  rw [analyseObject_eq, analyseObject_eq]
  refine .given fun arranged => .record ?_
  refine TracksTo.bind (TracksTo.forM fun property listed middle trail => ?_) fun _ middle trail _ => ?_
  · -- The property lies inside the record, hence in the realm and above the limit.
    obtain ⟨member, above⟩ := inside arranged (Record.mem_children.mpr (.inl listed))
    exact tracks_analyseProperty (trail.stands stands) alike member above
  · have stands := trail.stands stands
    -- What is left are the values of patterns and of additional properties, and what the object plans.
    have rest {last : Model} {plans : Modelling Unit}
        (same : plans = do
          plan context site.owner id .object
          planNegation context site.owner id
          reconcileRequired id) :
        Tracks context first last plans plans := by
      rw [same]
      exact TracksTo.bind tracks_plan fun _ _ _ _ => TracksTo.bind tracks_planNegation fun _ _ _ _ =>
        tracks_reconcileRequired
    refine .given fun arranged => .record ?_
    refine TracksTo.bind (TracksTo.forM fun entry listed last further => ?_) fun _ last further _ => ?_
    · obtain ⟨member, above⟩ := inside arranged
        -- The entry lies inside the record as well.
        (Record.mem_children.mpr (.inr (.inl ⟨entry, listed, rfl⟩)))
      exact alike site entry.record .value last rfl (further.stands stands) member above
    · refine .given fun arranged => .record ?_
      split
      · rename_i value additional
        obtain ⟨member, above⟩ := inside arranged
          -- So does the value of additional properties.
          (Record.mem_children.mpr (.inr (.inr (.inl additional))))
        exact TracksTo.bind (alike site value .value last rfl (further.stands stands) member above)
          fun _ _ _ _ => rest rfl
      · exact rest rfl

/-- A class that is nested for a record is a site for its members. -/
theorem Site.stands_nested (declared : owner.index < first.declarations.size) {index : Nat}
    (there : index < (start.declaration owner).nested.size) :
    (⟨owner, some index⟩ : Site).Stands first start where
  declared := declared
  placed other held := by
    cases held
    exact there

/-- A record of a decided shape is developed alike. -/
theorem tracks_develop (stands : site.Stands first start)
    (alike : inner.Tracks inner' context first site.owner (id.index + 1))
    (member : id ∈ first.realm site.owner) {role : Role} {shape : Shape} :
    Tracks context first start (develop context inner site id role shape)
      (develop context inner' site id role shape) := by
  cases shape with
  | object =>
    -- Both runs find the same class or add the same one.
    refine (tracksTo_nestedClass stands member).bind fun found middle _ there => ?_
    refine TracksTo.bind tracks_settle fun shape last trail _ => ?_
    -- The class that was found or added is where the members are analysed.
    have nested : (⟨site.owner, some found.1⟩ : Site).Stands first last :=
      trail.stands (Site.stands_nested stands.declared there)
    split
    · exact TracksTo.bind (tracks_analyseObject nested alike member (Nat.le_refl _))
        fun _ _ _ _ => .pure trivial
    · exact .pure trivial
  | identifierEnum =>
    exact (tracksTo_nestedClass stands member).bind fun _ _ _ _ => tracks_settle
  | array =>
    refine TracksTo.bind tracks_shape fun _ middle trail _ => .given fun arranged => .record ?_
    split
    · rename_i items held
      -- The items lie behind the array, as the count of the depth asks.
      obtain ⟨member, behind⟩ := arranged.mem_realm stands.declared member
        (Record.mem_children.mpr (.inr (.inr (.inr (.inl held)))))
      exact TracksTo.bind (alike site items role.ofItems middle rfl (trail.stands stands) member behind)
        fun _ _ _ _ => .pure trivial
    · exact .pure trivial
  | reference type =>
    -- A class of one's own is imported, if it is to be imported, by both runs.
    cases type with
    | generated ref => exact .pure trivial
    | custom custom =>
      simp only [develop]
      split
      · exact TracksTo.bind tracks_addImport fun _ _ _ _ => .pure trivial
      · exact .pure trivial
  | _ => exact .pure trivial

end

/-- A record is analysed alike by the recursion that keeps a list of what is pending and by the one that
only counts how deep it goes. -/
theorem tracks_analyse {pending : List RecordId}
    (waiting : ∀ id ∈ first.realm owner, low ≤ id.index → id ∈ pending)
    (deep : first.ledger.size < low + depth) :
    Analysis.Tracks (analyse context pending) (analyseWithin context beyond depth) context first owner
      low := by
  -- A record lies behind the one around it, so one step deeper the numbers start one higher.
  induction depth generalizing low pending with
  | zero =>
    rintro site id role start rfl stands member above
    refine .given fun arranged => ?_
    -- A record of the realm would lie beyond the ledger.
    have present := (arranged.declared.closed_scope stands.declared).present id member
    omega
  | succ depth ih =>
    rintro site id role start rfl stands member above
    rw [analyse, analyseWithin]
    refine .record ?_
    split
    · rw [dif_pos (waiting id member above)]
      have inner : Analysis.Tracks (analyse context (pending.erase id))
          (analyseWithin context beyond depth) context first site.owner (id.index + 1) := by
        -- Below this record only those behind it are analysed, and of the pending ones they lose
        -- none.
        refine ih (fun other member behind => ?_) (by omega)
        have different : other ≠ id := by
          rintro rfl
          omega
        exact (List.mem_erase_of_ne different).mpr (waiting other member (by omega))
      refine TracksTo.bind tracks_linkTarget fun _ middle trail _ => .ledger ?_
      refine TracksTo.bind (tracks_develop (trail.stands stands) inner member) fun shape _ _ _ => ?_
      exact TracksTo.bind tracks_shape fun _ _ _ _ => TracksTo.bind tracks_plan fun _ _ _ _ =>
        tracks_planNegation
    · exact .pure trivial

/-- Every record of a declaration is analysed alike within a depth above the number of records. -/
theorem tracks_analyseAny (deep : first.ledger.size < depth) :
    Analysis.Tracks (analyseAny context) (analyseWithin context beyond depth) context first owner 0 := by
  rintro site id role start rfl stands member above
  refine .given fun arranged => .ledgerAside ?_
  refine tracks_analyse (fun other member _ => mem_ids.mpr ?_) (by omega) site id role start rfl stands
    member above
  exact Nat.lt_of_lt_of_le ((arranged.declared.closed_scope stands.declared).present other member)
    arranged.ledger.size_le

/-- A declaration is a site for classes. -/
theorem Site.stands_outermost (inside : owner.index < first.declarations.size) :
    (⟨owner, none⟩ : Site).Stands first start where
  declared := inside
  placed _ := nofun

section

variable {analyse analyse' : Analysis} {container branch property variant : RecordId}

/-- A class is opened, with its base noted at both of them. -/
theorem tracks_openClass {record : RecordId} :
    Tracks context first start (openClass context owner record) (openClass context owner record) := by
  -- With or without a base, the record is shaped last.
  have rest {last : Model} {base : Option DeclarationId} {opened : Modelling (Option RecordId)}
      (same : opened = do
        updateRecord record fun record => { record with shape := some .object }
        let model ← get
        return base.map fun base => (model.declaration base).record) :
      Tracks context first last opened opened := by
    rw [same]
    exact TracksTo.bind tracks_shape fun _ _ _ _ => .get (.pure trivial)
  refine .get ?_
  dsimp only
  cases start.base? context.tree owner with
  -- Without a base the shape is all that is left to do.
  | none => exact rest rfl
  -- Otherwise three notes come before it.
  | some base =>
    refine TracksTo.bind (tracks_note fun _ => rfl) fun _ _ _ _ => ?_
    refine TracksTo.bind (tracks_note fun _ => rfl) fun _ _ _ _ => ?_
    exact TracksTo.bind tracks_importDeclaration fun _ _ _ _ => rest rfl

/-- The analysis of a declaration is that of its members, each in the usual way. -/
theorem analyseDeclaration_eq :
    analyseDeclaration context owner = analyseDeclarationBy context (analyseAny context) owner := by
  unfold analyseDeclaration analyseDeclarationBy
  refine bind_congr fun held => ?_
  rw [analyseClass_eq]
  rfl

/-- The members of a declaration are analysed alike. -/
theorem tracks_analyseDeclaration (inside : owner.index < first.declarations.size)
    (alike : analyse.Tracks analyse' context first owner 0) :
    Tracks context first start (analyseDeclarationBy context analyse owner)
      (analyseDeclarationBy context analyse' owner) := by
  refine .given fun arranged => .declaration ?_
  have root : (start.declaration owner).record ∈ first.realm owner := by
    rw [(arranged.grows owner).record]
    exact Ledger.mem_scope_self
  cases (start.declaration owner).kind with
  | enumeration => exact tracks_shape
  | interface => exact tracks_shape
  -- The class is opened alike, and its members are analysed from its own record on.
  | concrete =>
    refine .declaration (TracksTo.bind tracks_openClass fun base middle trail _ => ?_)
    exact tracks_analyseObject (Site.stands_outermost inside) alike root (Nat.zero_le _)

/-- A branch of a union is resolved alike. -/
theorem tracks_resolveBranch (inside : owner.index < first.declarations.size)
    (alike : analyse.Tracks analyse' context first owner 0) (member : branch ∈ first.realm owner) :
    Tracks context first start (resolveBranchBy context analyse owner branch)
      (resolveBranchBy context analyse' owner branch) := by
  refine .record (.get ?_)
  dsimp only
  split
  · -- A declared class implements the union.
    split
    · refine TracksTo.bind (tracks_note fun _ => rfl) fun _ _ _ _ => ?_
      refine TracksTo.bind (tracks_note fun _ => rfl) fun _ _ _ _ => ?_
      exact tracks_importDeclaration
    · exact .pure trivial
  · refine .declaration (.ledger ?_)
    split
    · -- A class is nested that no earlier one was made for.
      rename_i chosen
      simp only [Bool.and_eq_true, Bool.not_eq_true', Option.isSome_eq_false_iff,
        Option.isNone_iff_eq_none] at chosen
      -- The new class stands at the end of those nested in the owner.
      refine (tracksTo_pushVariant (Site.stands_outermost inside) member chosen.1).bind
        fun index middle _ there => ?_
      refine TracksTo.bind tracks_settle fun _ last trail _ => ?_
      exact tracks_analyseObject (trail.stands (Site.stands_nested inside there)) alike member
        (Nat.zero_le _)
    · exact .pure trivial

/-- A property of a branch joins a variant alike. -/
theorem tracks_joinProperty (stands : site.Stands first start)
    (alike : analyse.Tracks analyse' context first site.owner 0)
    (late : first.ledger.size ≤ variant.index) (member : property ∈ first.realm site.owner) :
    Tracks context first start (joinPropertyBy analyse site variant property)
      (joinPropertyBy analyse' site variant property) := by
  refine .record (TracksTo.bind (alike site property _ start rfl stands member (Nat.zero_le _))
    fun _ middle _ _ => .ledger ?_)
  split
  · -- A property that the variant has gets more checks; any other one joins it.
    exact tracks_updateChecks
  · exact tracks_updateRecord_of_le late

/-- The variant of a class for a branch is made alike. -/
theorem tracks_addVariant (stands : site.Stands first start)
    (alike : analyse.Tracks analyse' context first site.owner 0)
    (member : branch ∈ first.realm site.owner) :
    Tracks context first start (addVariantBy context analyse site container branch)
      (addVariantBy context analyse' site container branch) := by
  refine .given fun arranged => .record (.declaration ?_)
  split
  · rename_i absent
    refine tracksTo_copyForVariant.bind fun variant copied trail made => .given fun arranged' => ?_
    obtain ⟨late, same⟩ := made
    dsimp only
    -- The copy is no class, and the branch still has its schema, so none was made for that.
    have absent : (copied.declaration site.owner).findNested? (copied.ledger.record branch).schema none =
        none := by
      rw [(arranged'.settles stands.declared member).sameOrigin.schema,
        ← (arranged.settles stands.declared member).sameOrigin.schema, Model.declaration, same]
      exact Option.isNone_iff_eq_none.mp absent
    -- The class is the last one nested in the owner, and the variant is settled on it.
    refine (tracksTo_pushVariant (trail.stands stands) member absent).bind fun index pushed _ there => ?_
    refine TracksTo.bind tracks_settle fun _ last trail' _ => .given fun arranged => .record ?_
    have nested : (⟨site.owner, some index⟩ : Site).Stands first last :=
      trail'.stands (Site.stands_nested stands.declared there)
    refine TracksTo.bind (TracksTo.forM fun property listed middle further => ?_) fun _ _ _ _ => ?_
    · -- The properties of the branch are still in the realm, though the ledger has grown.
      have inner := arranged.mem_realm stands.declared member (Record.mem_children.mpr (.inl listed))
      exact tracks_joinProperty (further.stands nested) alike late inner.1
    · refine .record (.record (TracksTo.bind (TracksTo.forM fun name _ _ _ => ?_) fun _ _ _ _ => ?_))
      · exact tracks_joinRequired late
      · exact TracksTo.bind tracks_plan fun _ _ _ _ => tracks_reconcileRequired
  · exact .pure trivial

/-- The variants of a class are made alike. -/
theorem tracks_addVariants (stands : site.Stands first start)
    (alike : analyse.Tracks analyse' context first site.owner 0)
    (member : container ∈ first.realm site.owner) :
    Tracks context first start (addVariantsBy context analyse site container)
      (addVariantsBy context analyse' site container) := by
  -- The list of branches is fixed, while the model grows with each of them.
  refine .given fun arranged => .record ?_
  refine TracksTo.forM fun branch listed middle trail => ?_
  have inner := arranged.mem_realm stands.declared member
    (Record.mem_children.mpr (.inr (.inr (.inr (.inr (.inl listed))))))
  exact tracks_addVariant (trail.stands stands) alike inner.1

/-- The variants of nested classes are made alike, and the loop over them comes to an end: there are no
more classes than records. -/
theorem tracks_addNestedVariants {steps index : Nat} (inside : owner.index < first.declarations.size)
    (alike : (analyseAny context).Tracks analyse' context first owner 0)
    (within : index ≤ first.ledger.size) (enough : first.ledger.size < index + steps)
    (deep : first.ledger.size < index + depth) :
    Tracks context first start (addNestedVariants context owner steps index)
      (addNestedVariantsWithin context analyse' beyond owner depth index) := by
  induction steps generalizing index depth start with
  | zero => omega
  | succ steps ih =>
    -- The steps that count the depth outnumber the classes, hence there is one left.
    obtain ⟨depth, rfl⟩ : ∃ less, depth = less + 1 := ⟨depth - 1, by omega⟩
    refine .given fun arranged => .declaration ?_
    cases there : (start.declaration owner).nested[index]? with
    -- No class is left, and both loops end.
    | none => exact .pure trivial
    | some nested =>
      -- Each nested class has a record of the realm to itself, so there are no more of them.
      have below : index < first.ledger.size :=
        calc index < (start.declaration owner).nested.size := (Array.getElem?_eq_some_iff.mp there).1
          _ ≤ (first.realm owner).ncard := arranged.nested_size_le inside
          _ ≤ first.ledger.size := arranged.declared.ncard_realm_le inside
      have further {last : Model} : Tracks context first last
          (addNestedVariants context owner steps (index + 1))
          (addNestedVariantsWithin context analyse' beyond owner depth (index + 1)) :=
        ih (by omega) (by omega) (by omega)
      dsimp only
      -- Only concrete classes that are no variants get some.
      split
      · rename_i chosen
        simp only [Bool.and_eq_true, Bool.not_eq_true'] at chosen
        have member := (arranged.belongs owner nested (Array.mem_of_getElem? there)).record chosen.2
        have stands : (⟨owner, some index⟩ : Site).Stands first start :=
          Site.stands_nested inside (Array.getElem?_eq_some_iff.mp there).1
        exact TracksTo.bind (tracks_addVariants stands alike member) fun _ _ _ _ => further
      · -- The other classes are passed over in both runs.
        exact further

/-- The branches of a declaration are resolved alike, and it is noted that they are. -/
theorem tracksTo_resolveVariants (inside : owner.index < first.declarations.size)
    (alike : (analyseAny context).Tracks analyse' context first owner 0)
    (deep : first.ledger.size < depth) :
    TracksTo context first start (resolveVariants context owner)
      (resolveVariantsWithin context analyse' beyond depth owner)
      fun _ last => (last.declaration owner).hasVariants := by
  refine .given fun arranged => .declaration ?_
  -- The mark is set before anything else is done.
  split
  · refine TracksTo.bind (tracksTo_note (fun _ => rfl) (fun _ held => held) fun _ _ => rfl)
      fun _ middle _ marked => ?_
    -- Whatever follows keeps the mark.
    have mark : (middle.declaration owner).hasVariants := by
      rw [marked, Model.declaration_updateDeclaration,
        if_pos ⟨rfl, arranged.size ▸ inside⟩]
    have root : (start.declaration owner).record ∈ first.realm owner := by
      rw [(arranged.grows owner).record]
      exact Ledger.mem_scope_self
    suffices rest : Tracks context first middle _ _ from
      rest.mono fun _ _ trail _ => trail.forward.hasVariants owner mark
    have nested {last : Model} : Tracks context first last
        (do
          let bound := (← declaration owner).nested.size + context.tree.schemas.size + (← ledger).size
          addNestedVariants context owner (bound + 1) 0)
        (addNestedVariantsWithin context analyse' beyond owner depth 0) := by
      refine .given fun arranged => ?_
      -- The ledger grows only, so that the bound counts at least the records of the first model.
      have grown := arranged.ledger.size_le
      have size : last.ledger.size <
          0 + ((last.declaration owner).nested.size + context.tree.schemas.size + last.ledger.size + 1) :=
        by omega
      exact tracks_addNestedVariants inside alike (Nat.zero_le _) (Nat.lt_of_le_of_lt grown size) (by omega)
    split
    · -- An interface resolves its branches, any other kind adds variants, and nested classes come
      -- last.
      cases (start.declaration owner).kind with
      | interface =>
        refine .given fun arranged' => .record ?_
        refine TracksTo.bind (TracksTo.forM fun branch listed last trail => ?_) fun _ _ _ _ => nested
        have inner := arranged'.mem_realm inside root
          (Record.mem_children.mpr (.inr (.inr (.inr (.inr (.inl listed))))))
        exact tracks_resolveBranch inside alike inner.1
      | _ =>
        exact TracksTo.bind (tracks_addVariants (Site.stands_outermost inside) alike root)
          fun _ _ _ _ => nested
    · exact .pure trivial
  · -- A declaration that was marked is left alone.
    rename_i done
    exact .pure (by simpa using done)

end

/-- Classes analysed one after the other, the last one first, and all noted as analysed before that. -/
def analyseChain (context : Context) (fresh : List DeclarationId) : Modelling Unit := do
  fresh.forM fun id =>
    updateDeclaration id fun declaration => { declaration with isAnalysed := true }
  fresh.reverse.forM (analyseDeclaration context)

/-- The first class of a chain is noted before the others, and analysed behind them. -/
theorem analyseChain_cons {other : DeclarationId} {fresh : List DeclarationId} :
    analyseChain context (other :: fresh) = (do
      updateDeclaration other fun declaration => { declaration with isAnalysed := true }
      analyseChain context fresh
      analyseDeclaration context other) := by
  simp only [analyseChain, List.forM_eq_forM, List.forM_cons, List.reverse_cons, List.forM_append,
    List.forM_nil, bind_assoc, bind_pure_unit]

end Modelling

namespace Model

variable {model : Model} {tree : SchemaTree} {id other : DeclarationId} {rest : List DeclarationId}

/-- All classes on the way over the bases are extended. -/
theorem Descent.transGen (descent : model.Descent tree id rest) (member : other ∈ rest) :
    Relation.TransGen (model.Extends tree) id other := by
  induction descent with
  | last none => exact absurd member List.not_mem_nil
  | base extends' further ih =>
    rcases List.mem_cons.mp member with rfl | member
    · exact .single extends'
    · exact .head extends' (ih member)

/-- No more bases are met than asked for. -/
theorem length_bases_le {steps : Nat} : (model.bases tree steps id).length ≤ steps := by
  induction steps generalizing id with
  | zero => exact Nat.le_refl 0
  | succ steps ih =>
    rw [bases]
    split
    · exact Nat.succ_le_succ ih
    · exact Nat.zero_le _

end Model

/-- The same items are taken from the front of a list by tests that agree on the list. -/
theorem takeWhile_congr {α : Type} {test test' : α → Bool} {items : List α}
    (same : ∀ item ∈ items, test item = test' item) : items.takeWhile test = items.takeWhile test' := by
  induction items with
  | nil => rfl
  | cons item rest ih =>
    rw [List.takeWhile_cons, List.takeWhile_cons, same item List.mem_cons_self,
      ih fun other member => same other (List.mem_cons_of_mem _ member)]

namespace Modelling

variable {context : Context} {first start : Model} {id : DeclarationId} {analyse' : Analysis}
variable {depth : Nat} {beyond : Modelling Unit}

/-- A declaration that was not analysed is noted, and its chain is analysed alike if that of its base
is. -/
theorem tracksTo_analyseChain {rest : List DeclarationId} (inside : id.index < first.declarations.size)
    (alike : (analyseAny context).Tracks analyse' context first id 0)
    (others : ∀ middle, (∀ other ≠ id, middle.declaration other = start.declaration other) →
      Tracks context first middle
        (analyseChain context (rest.takeWhile fun other => !(start.declaration other).isAnalysed))
        ((first.base? context.tree id).forM
          (resolveMembersWithin context analyse' beyond depth))) :
    TracksTo context first start
      (analyseChain context ((id :: rest).takeWhile fun other => !(start.declaration other).isAnalysed))
      (resolveMembersWithin context analyse' beyond (depth + 1) id)
      fun _ last => (last.declaration id).isAnalysed := by
  refine .given fun arranged => .declarationAside ?_
  rw [List.takeWhile_cons]
  split
  · -- The declaration is marked, then come its bases, and then it is analysed itself.
    rw [analyseChain_cons]
    refine TracksTo.bind (tracksTo_note (fun _ => rfl) (fun _ _ => rfl) fun _ held => held)
      fun _ middle _ marked => .given fun arranged' => ?_
    -- Whatever follows keeps the mark.
    have mark : (middle.declaration id).isAnalysed := by
      rw [marked, Model.declaration_updateDeclaration, if_pos ⟨rfl, arranged.size ▸ inside⟩]
    suffices rest : Tracks context first middle _ _ from
      rest.mono fun _ _ trail _ => trail.forward.isAnalysed id mark
    refine .getAside ?_
    rw [arranged'.base?_eq]
    refine TracksTo.bind (others middle fun other different => ?_) fun _ _ _ _ => ?_
    · rw [marked, Model.declaration_updateDeclaration_of_ne different]
    · -- The bases are analysed by now, and the declaration follows.
      rw [analyseDeclaration_eq]
      exact tracks_analyseDeclaration inside alike
  · -- Where the class is analysed already, both runs stop, and so does the list of the bases.
    rename_i done
    exact .pure (by simpa using done)

/-- The members of a declaration and of its bases are analysed alike, and the recursion over the bases
comes to an end where these do. -/
theorem tracksTo_descent {rest : List DeclarationId} (descent : first.Descent context.tree id rest)
    (grounded : first.Grounded context.tree) (inside : id.index < first.declarations.size)
    (alike : ∀ owner, (analyseAny context).Tracks analyse' context first owner 0)
    (deep : rest.length < depth) :
    TracksTo context first start
      (analyseChain context ((id :: rest).takeWhile fun other => !(start.declaration other).isAnalysed))
      (resolveMembersWithin context analyse' beyond depth id)
      fun _ last => (last.declaration id).isAnalysed := by
  induction descent generalizing start depth with
  | @last id none =>
    obtain ⟨depth, rfl⟩ : ∃ less, depth = less + 1 := ⟨depth - 1, by omega⟩
    -- Without a base, the mark and the analysis are all that is done.
    refine tracksTo_analyseChain inside (alike id) fun middle _ => ?_
    rw [none]
    exact .pure trivial
  | @base id base rest extends' further ih =>
    obtain ⟨depth, rfl⟩ : ∃ less, depth = less + 1 := ⟨depth - 1, by omega⟩
    refine tracksTo_analyseChain inside (alike id) fun middle same => ?_
    rw [show first.base? context.tree id = some base from extends']
    -- The class itself is none of its bases, so these are as they were.
    have before : (base :: rest).takeWhile (fun other => !(start.declaration other).isAnalysed) =
        (base :: rest).takeWhile fun other => !(middle.declaration other).isAnalysed := by
      refine takeWhile_congr fun other member => ?_
      rw [same other]
      rintro rfl
      exact grounded.not_transGen ((Model.Descent.base extends' further).transGen member)
    rw [before]
    -- The induction hypothesis applies with one step less and from the base on.
    refine (ih (Model.inside_of_base? extends') ?_).mono fun _ _ _ _ => trivial
    simpa using deep

/-- The members of a declaration are resolved alike, and it is noted that they are. -/
theorem tracksTo_resolveMembers (grounded : first.Grounded context.tree)
    (inside : id.index < first.declarations.size)
    (alike : ∀ owner, (analyseAny context).Tracks analyse' context first owner 0)
    (deep : first.declarations.size < depth) :
    TracksTo context first start (resolveMembers context id)
      (resolveMembersWithin context analyse' beyond depth id)
      fun _ last => (last.declaration id).isAnalysed := by
  refine .given fun arranged => ?_
  have resolved : TracksTo context first start
      (analyseChain context ((id :: start.allBases context.tree id).takeWhile
        fun other => !(start.declaration other).isAnalysed))
      (resolveMembersWithin context analyse' beyond depth id)
      fun _ last => (last.declaration id).isAnalysed := by
    -- The chain is that of the first model, which the descent describes.
    rw [arranged.allBases_eq]
    exact tracksTo_descent (grounded.descent inside) grounded inside alike
      (Nat.lt_of_le_of_lt Model.length_bases_le deep)
  exact resolved

/-- All declarations are resolved alike, within a depth above the numbers of records and declarations,
and it is noted that they are. -/
theorem tracksTo_resolve (deep : first.ledger.size < depth) (deep' : first.declarations.size < depth) :
    TracksTo context first first (resolve context) (resolveWithin context beyond depth)
      fun _ last => ∀ id ∈ first.ids,
        (last.declaration id).isAnalysed ∧ (last.declaration id).hasVariants := by
  refine .get ?_
  cases found : first.circularBase? context.tree with
  -- A circle makes both runs fail in the same state.
  | some id => exact .throw
  | none =>
    have grounded := Model.grounded_of_circularBase? found
    have alike (owner : DeclarationId) : (analyseAny context).Tracks
        (analyseWithin context beyond depth) context first owner 0 := tracks_analyseAny deep
    -- All members are resolved before the first variant, and the marks of earlier rounds last.
    refine TracksTo.bind (TracksTo.forEach (fun id a b trail held => trail.forward.isAnalysed id held)
      fun id member middle _ => tracksTo_resolveMembers grounded (Model.mem_ids.mp member) alike deep')
      fun _ middle trail analysed => ?_
    refine (TracksTo.forEach (fun id a b trail held => trail.forward.hasVariants id held)
      fun id member last _ => tracksTo_resolveVariants (Model.mem_ids.mp member) (alike id) deep).mono
      fun _ last trail resolved id member => ?_
    exact ⟨trail.forward.isAnalysed id (analysed id member), resolved id member⟩

/-- Whatever documents say, their resolution comes to an end: none of its recursions goes deeper, and no
loop over nested classes goes round more often, than there are records and declarations, so that it does
not matter what would happen beyond. However it ends, no more classes are nested in a declaration than
there were records below that of the declaration. -/
theorem bounded_resolve {context : Context} {roots : List RootSchema} :
    Ends (roots.forM (declareRoot context)) {}
      (fun _ model =>
        (∀ beyond, resolveWithin context beyond (model.ledger.size + model.declarations.size + 1) model =
          resolve context model) ∧
        ∀ id ∈ model.ids, ((lastState (resolve context) model).declaration id).nested.size ≤
          (model.ledger.scope (model.declaration id).record).ncard)
      (fun _ => True) := by
  refine declared_roots.mono fun _ model declared => ?_
  have tracks (beyond : Modelling Unit) :=
    @tracksTo_resolve context model (model.ledger.size + model.declarations.size + 1) beyond
      (by omega) (by omega) declared.arranged
  -- With enough depth both runs end alike, so that what lies beyond it does not matter.
  refine ⟨fun beyond => (tracks beyond).1.symm, fun id member => ?_⟩
  -- The last state is on the trail, like all states before it.
  have trail : Trail context model model (lastState (resolve context) model) :=
    ((tracks (pure ())).2.imp (fun _ _ found => found.1) fun _ _ left => left).lastState
  exact (trail.arranged declared.arranged).nested_size_le (Model.mem_ids.mp member)

end Modelling

end SchemaClasses
