import SchemaClasses.Proofs.Resolution.Estates
import SchemaClasses.Proofs.Resolution.Ownership
import SchemaClasses.Proofs.Resolution.Presence

/-! A run that tells which variants of classes it makes, with the models before and after each of them: it
does what the plain run does, and what holds of each variant that may be made holds of all that are told. -/

namespace SchemaClasses

/-- A variant of a class made for one of its branches, which led from one model to another. -/
structure Synthesis where
  /-- The class that the container was made for. -/
  site : Site
  container : RecordId
  branch : RecordId
  before : Model
  after : Model

namespace Modelling

variable {context : Context} {site : Site} {container branch : RecordId} {owner : DeclarationId}

/-- What is told of the last state changes nothing. -/
theorem tells_state {α : Type} {plain : Modelling Unit} {result : Model → α} :
    Tells (do plain; return result (← get)) plain := by
  funext model
  show ((fun _ => ()) <$> (plain >>= fun _ => get >>= fun last => pure (result last))) model = plain model
  simp only [Functor.map, EStateM.map, Bind.bind, EStateM.bind]
  cases plain model <;> rfl

/-- The variant of a class for one of its branches, which is told if it is made. -/
def synthesizing (context : Context) (site : Site) (container branch : RecordId) :
    Modelling (List Synthesis) := do
  let before ← get
  addVariant context site container branch
  let after ← get
  let origin := (before.ledger.record branch).schema
  return if ((before.declaration site.owner).findNested? origin none).isNone then
    [{ site, container, branch, before, after }] else []

theorem tells_synthesizing :
    Tells (synthesizing context site container branch) (addVariant context site container branch) := by
  -- What is told depends on the state before, which is fixed here.
  have each (before : Model) : Tells (do
      addVariant context site container branch
      let after ← get
      return if ((before.declaration site.owner).findNested?
          (before.ledger.record branch).schema none).isNone then
        [(⟨site, container, branch, before, after⟩ : Synthesis)] else [])
      (addVariant context site container branch) := tells_state
  funext model
  exact congrFun (each model) model

/-- The variants of a class, all of them told. -/
def synthesizingVariants (context : Context) (site : Site) (container : RecordId) :
    Modelling (List Synthesis) := do
  gather (synthesizing context site container) (← record container).oneOf

theorem tells_synthesizingVariants :
    Tells (synthesizingVariants context site container) (addVariants context site container) :=
  Tells.after fun _ => Tells.gather fun _ => tells_synthesizing

/-- The variants of the nested classes from one of them on, all of them told. -/
def synthesizingNested (context : Context) (owner : DeclarationId) :
    Nat → Nat → Modelling (List Synthesis)
  | 0, _ => pure []
  | steps + 1, index => do
    match (← declaration owner).nested[index]? with
    | none => pure []
    | some nested =>
      if nested.kind == .concrete && !nested.isVariant then do
        let told ← synthesizingVariants context ⟨owner, some index⟩ nested.record
        let told' ← synthesizingNested context owner steps (index + 1)
        return told ++ told'
      else synthesizingNested context owner steps (index + 1)

theorem tells_synthesizingNested {steps index : Nat} :
    Tells (synthesizingNested context owner steps index)
      (addNestedVariants context owner steps index) := by
  induction steps generalizing index with
  | zero => exact tells_pure
  | succ steps ih =>
    -- The loop ends with the classes, or goes on behind this one.
    refine Tells.after fun declared => ?_
    cases declared.nested[index]? with
    | none => exact tells_pure
    | some nested =>
      dsimp only
      split
      · exact tells_synthesizingVariants.before fun told => ih.map
      · exact ih

/-- The variants of all nested classes, with as many steps as the plain run takes. -/
def synthesizingAllNested (context : Context) (id : DeclarationId) : Modelling (List Synthesis) := do
  let bound := (← declaration id).nested.size + context.tree.schemas.size + (← ledger).size
  synthesizingNested context id (bound + 1) 0

/-- The branches of a declaration and of the classes nested in it, of which all variants are told. -/
def synthesizingBranches (context : Context) (id : DeclarationId) : Modelling (List Synthesis) := do
  let declared ← declaration id
  if !declared.hasVariants then
    updateDeclaration id fun declaration => { declaration with hasVariants := true }
    if declared.kind ≠ .enumeration then
      match declared.kind with
      | .interface => do
        (← record declared.record).oneOf.forM (resolveBranch context id)
        synthesizingAllNested context id
      | _ => do
        let told ← synthesizingVariants context ⟨id, none⟩ declared.record
        let told' ← synthesizingAllNested context id
        return told ++ told'
    else return []
  else return []

theorem tells_synthesizingBranches {id : DeclarationId} :
    Tells (synthesizingBranches context id) (resolveVariants context id) := by
  have nested : Tells (synthesizingAllNested context id) (do
      let bound := (← declaration id).nested.size + context.tree.schemas.size + (← ledger).size
      addNestedVariants context id (bound + 1) 0) :=
    Tells.after fun _ => Tells.after fun _ => tells_synthesizingNested
  refine Tells.after fun declared => ?_
  split
  · -- The declaration is marked first, which tells nothing.
    refine Tells.after fun _ => ?_
    split
    · cases declared.kind with
      -- An interface has branches instead of variants, and only the classes nested in it may tell
      -- some.
      | interface => exact Tells.after fun _ => Tells.after fun _ => nested
      | concrete => exact tells_synthesizingVariants.before fun told => nested.map
      | enumeration => exact tells_synthesizingVariants.before fun told => nested.map
    · exact tells_pure
  · exact tells_pure

/-- The resolution of all declarations, which tells all variants. -/
def synthesizingResolve (context : Context) : Modelling (List Synthesis) := do
  let model ← get
  if let some id := model.circularBase? context.tree then
    throw (.circularBase (model.declaration id).qualifiedName)
  model.ids.forM (resolveMembers context)
  gather (synthesizingBranches context) model.ids

theorem tells_synthesizingResolve : Tells (synthesizingResolve context) (resolve context) := by
  -- Behind the check for circular bases both runs do the same, whether it is passed or not.
  have branches (model : Model) : Tells (do
      model.ids.forM (resolveMembers context)
      gather (synthesizingBranches context) model.ids) (do
      model.ids.forM (resolveMembers context)
      model.ids.forM (resolveVariants context)) :=
    Tells.after fun _ => Tells.gather fun _ => tells_synthesizingBranches
  unfold synthesizingResolve resolve
  refine Tells.after fun model => ?_
  cases model.circularBase? context.tree with
  -- A circle is reported by both, after which the runs go on alike.
  | some id => exact Tells.after fun _ => branches model
  | none => exact branches model

/-- A run that tells all variants of classes. -/
def synthesizingBuild (context : Context) (roots : List RootSchema) : Modelling (List Synthesis) := do
  roots.forM (declareRoot context)
  synthesizingResolve context

/-- A run that tells its variants does what the plain run does. -/
theorem tells_synthesizingBuild {roots : List RootSchema} :
    Tells (synthesizingBuild context roots) (build context roots) :=
  Tells.after fun _ => tells_synthesizingResolve

/-- A run that tells something keeps what the plain one does. -/
theorem Tells.ends {α : Type} {telling : Modelling α} {plain : Modelling Unit} {start : Model}
    {done : Model → Prop} {failed : Model → Prop} (tells : Tells telling plain)
    (ends : Ends plain start (fun _ => done) failed) : Ends telling start (fun _ => done) failed := by
  rw [← tells, ends_map] at ends
  exact ends

variable {first start model last : Model} {floor : Nat} {id : RecordId} {holds : Synthesis → Prop}

/-- What lies in a class whose variants may be made, and what is carried along beside that. -/
structure Staging (context : Context) (first : Model) (site : Site) (floor : Nat) (container : RecordId)
    (model : Model) : Prop
    extends Hosting context first site floor container model, Varying first site container model where
  sole : model.ledger.Sole first.ledger.size

/-- Whether each variant that may be made for a branch satisfies a predicate. -/
def EachVariant (context : Context) (first : Model) (holds : Synthesis → Prop) : Prop :=
  ∀ {site : Site} {floor : Nat} {container branch : RecordId} {start : Model},
    Staging context first site floor container start →
    branch ∈ (start.ledger.record container).oneOf →
    (start.declaration site.owner).findNested? (start.ledger.record branch).schema none = none →
    Ends (addVariant context site container branch) start
      (fun _ last => holds ⟨site, container, branch, start, last⟩) (fun _ => True)

namespace Staging

variable {model : Model}

/-- The container and its branches were surveyed with the same properties, required names aside. -/
theorem surveyed_of (staging : Staging context first site floor container model)
    (member : id ∈ first.realm site.owner) :
    (first.ledger.record id).Settles (model.ledger.record id) ∧ id ∈ model.everywhere := by
  have inside := (staging.surveyed.closed_scope staging.declared).present id member
  exact ⟨staging.ledger.record id inside, Nat.lt_of_lt_of_le inside staging.ledger.size_le⟩

/-- They have the names that they were surveyed with. -/
theorem names_eq (staging : Staging context first site floor container model)
    (member : id ∈ first.realm site.owner) : model.ledger.names id = first.ledger.names id := by
  refine Ledger.names_congr (staging.surveyed_of member).1.properties_eq fun property held => ?_
  have inner := Ledger.mem_scope_of_child member (Record.mem_children.mpr (.inl held))
  exact (staging.surveyed_of inner).1.name_eq

/-- A branch was surveyed as one of the container. -/
theorem branch_of (staging : Staging context first site floor container model)
    (held : branch ∈ (model.ledger.record container).oneOf) :
    branch ∈ (first.ledger.record container).oneOf ∧ branch ∈ first.realm site.owner := by
  rw [(staging.surveyed_of staging.member).1.oneOf_eq] at held
  exact ⟨held, Ledger.mem_scope_of_child staging.member
    (Record.mem_children.mpr (.inr (.inr (.inr (.inr (.inl held))))))⟩

/-- Making a variant leaves a class so that more of them may be made. -/
theorem addVariant (staging : Staging context first site floor container start)
    (held : branch ∈ (start.ledger.record container).oneOf) :
    Ends (addVariant context site container branch) start
      (fun _ last => Staging context first site floor container last) (fun _ => True) := by
  -- Three things are kept by the making of a variant, each proved by itself.
  have made := ((serves_addVariant staging.toHosting (staging.inBranches held) held).and
    (proceeds_addVariant staging.toVarying held)).and
    (ends_sole (fun _ => labours_addVariant) staging.sole)
  refine made.imp (fun _ last done => ?_) fun _ _ => trivial
  obtain ⟨⟨⟨round, -⟩, led⟩, sole⟩ := done
  exact ⟨Course.ready round staging.toHosting, Course.ready led staging.toVarying, sole⟩

/-- A variant that is told is made as each one is. -/
theorem synthesizing (each : EachVariant context first holds)
    (staging : Staging context first site floor container start)
    (held : branch ∈ (start.ledger.record container).oneOf) :
    Ends (Modelling.synthesizing context site container branch) start
      (fun told last => Staging context first site floor container last ∧
        ∀ synthesis ∈ told, holds synthesis) (fun _ => True) := by
  have made : Ends (Modelling.synthesizing context site container branch) start
      (fun told _ => ∀ synthesis ∈ told, holds synthesis) (fun _ => True) := by
    simp only [Modelling.synthesizing, ends_bind, ends_get, ends_pure]
    cases absent : (start.declaration site.owner).findNested? (start.ledger.record branch).schema none with
    -- There is a class for the branch already, and nothing is told.
    | some index =>
      refine (staging.addVariant held).mono fun _ last _ => ?_
      simp
    | none =>
      -- The one variant that is told is the one that was just made.
      refine (each staging held absent).mono fun _ last made => ?_
      simpa using made
  exact ((tells_synthesizing.ends (staging.addVariant held)).and made).imp (fun _ _ done => done)
    fun _ _ => trivial

/-- So are all variants of a class. -/
theorem synthesizingVariants (each : EachVariant context first holds)
    (staging : Staging context first site floor container start) :
    Ends (synthesizingVariants context site container) start
      (fun told _ => ∀ synthesis ∈ told, holds synthesis) (fun _ => True) := by
  simp only [Modelling.synthesizingVariants, ends_bind, ends_record]
  refine (Ends.gather (fun left told state =>
    left ⊆ (start.ledger.record container).oneOf ∧
      Staging context first site floor container state ∧ ∀ synthesis ∈ told, holds synthesis)
    ⟨List.Subset.refl _, staging, fun _ member => absurd member List.not_mem_nil⟩
    fun branch left told state kept => ?_).mono fun _ _ kept => ?_
  · obtain ⟨within, staging', made⟩ := kept
    -- The alternatives of the class are still those from the beginning.
    have held : branch ∈ (state.ledger.record container).oneOf := by
      rw [(staging'.surveyed_of staging.member).1.oneOf_eq,
        ← (staging.surveyed_of staging.member).1.oneOf_eq]
      exact within List.mem_cons_self
    refine (staging'.synthesizing each held).mono fun more last done => ?_
    -- What is told by now was told before this round or in it.
    refine ⟨List.subset_of_cons_subset within, done.1, fun synthesis member => ?_⟩
    exact (List.mem_append.mp member).elim (made synthesis) (done.2 synthesis)
  · exact kept.2.2

end Staging

/-- A declaration whose nested classes may get variants. -/
structure Furnished (context : Context) (first : Model) (owner : DeclarationId) (floor : Nat)
    (model : Model) : Prop
    extends Nesting context first owner floor model, Proceeding first model where
  sole : model.ledger.Sole first.ledger.size

namespace Furnished

/-- A class may get variants that was nested and is no variant itself. -/
theorem staging {index : Nat} {nested : NestedClass}
    (furnished : Furnished context first owner floor start)
    (found : (start.declaration owner).nested[index]? = some nested) (concrete : nested.kind = .concrete)
    (plain : nested.isVariant = false) :
    Staging context first ⟨owner, some index⟩ floor nested.record start :=
  ⟨furnished.toNesting.hosting found concrete plain,
    furnished.toProceeding.varying furnished.declared found concrete plain, furnished.sole⟩

/-- So may the declared class. -/
theorem staging_declared (furnished : Furnished context first owner floor start)
    (concrete : (first.declaration owner).kind = .concrete)
    (whole : start.Whole owner (first.declaration owner).record) :
    Staging context first ⟨owner, none⟩ floor (first.declaration owner).record start :=
  ⟨furnished.toNesting.hosting_declared whole,
    furnished.toProceeding.varying_declared furnished.declared concrete, furnished.sole⟩

/-- Making the variants of a class leaves a declaration so that other classes may get some. -/
theorem addVariants (furnished : Furnished context first site.owner floor start)
    (staging : Staging context first site floor container start) :
    Ends (addVariants context site container) start
      (fun _ last => Furnished context first site.owner floor last) (fun _ => True) := by
  -- Variants of one class leave the nesting, the order and the sets of the declaration intact.
  have added := ((serves_addVariants staging.toHosting).and
    (proceeds_addVariants start staging.toVarying)).and
    (ends_sole (fun _ => labours_addVariants) staging.sole)
  refine added.imp (fun _ last done => ?_) fun _ _ => trivial
  obtain ⟨⟨⟨round, -⟩, led⟩, sole⟩ := done
  exact ⟨Course.ready round furnished.toNesting, Course.ready led furnished.toProceeding, sole⟩

/-- All variants that are told of nested classes are made as each one is. -/
theorem synthesizingNested {steps index : Nat} (each : EachVariant context first holds)
    (furnished : Furnished context first owner floor start) :
    Ends (synthesizingNested context owner steps index) start
      (fun told _ => ∀ synthesis ∈ told, holds synthesis) (fun _ => True) := by
  induction steps generalizing index start with
  | zero => exact fun _ member => absurd member List.not_mem_nil
  | succ steps ih =>
    simp only [Modelling.synthesizingNested, ends_bind, ends_declaration]
    -- There may be no class left under the number.
    split
    · exact fun _ member => absurd member List.not_mem_nil
    · rename_i nested found
      split
      · rename_i chosen
        simp only [Bool.and_eq_true, beq_iff_eq, Bool.not_eq_true'] at chosen
        -- The class under the number is staged by then, and the rest starts from where its variants end.
        have staging := furnished.staging found chosen.1 chosen.2
        rw [ends_bind]
        refine ((tells_synthesizingVariants.ends (furnished.addVariants staging)).and
          (staging.synthesizingVariants each)).imp (fun told middle done => ?_) fun _ _ => trivial
        rw [ends_bind]
        refine (ih done.1).mono fun told' last made => ?_
        rw [ends_pure]
        exact fun synthesis member => (List.mem_append.mp member).elim (done.2 synthesis) (made synthesis)
      · -- A class of another kind and a variant get no variants.
        exact ih furnished

/-- All variants of all nested classes are. -/
theorem synthesizingAllNested (each : EachVariant context first holds)
    (furnished : Furnished context first owner floor start) :
    Ends (synthesizingAllNested context owner) start
      (fun told _ => ∀ synthesis ∈ told, holds synthesis) (fun _ => True) := by
  simp only [Modelling.synthesizingAllNested, ends_bind, ends_declaration, ends_ledger]
  exact furnished.synthesizingNested each

/-- That a class is being resolved is noted without any other change. -/
theorem mark (furnished : Furnished context first owner floor start) :
    Furnished context first owner floor
      (start.updateDeclaration owner fun declaration => { declaration with hasVariants := true }) := by
  have led : Proceeds context first start
      (start.updateDeclaration owner fun declaration => { declaration with hasVariants := true }) :=
    proceeds_mark furnished.declared start furnished.toProceeding
  have round := @Round.resolve context first start owner floor
  exact ⟨Course.ready round furnished.toNesting, led.kept furnished.toProceeding, furnished.sole⟩

/-- The branches of an interface leave it so that its nested classes may get variants. -/
theorem resolveBranches {model : Model} (furnished : Furnished context first owner floor model)
    (bare : ∀ branch ∈ (first.ledger.record (first.declaration owner).record).oneOf,
      (model.ledger.record branch).shape = none) :
    Ends ((model.ledger.record (first.declaration owner).record).oneOf.forM
        (resolveBranch context owner)) model
      (fun _ last => Furnished context first owner floor last) (fun _ => True) := by
  -- That the ledger only moves is what its sole owners need.
  have moves : Ends ((model.ledger.record (first.declaration owner).record).oneOf.forM
      (resolveBranch context owner)) model (fun _ last => Moves context model last) (fun _ => True) := by
    have inside : owner.index < model.declarations.size := furnished.arranged.size ▸ furnished.declared
    have steadfast : Steadfast context model.declarations.size (Moves context model) := steadfast_moves
    have keeps : Keeps (Moves context model) LacksName
        ((model.ledger.record (first.declaration owner).record).oneOf.forM (resolveBranch context owner)) :=
      Keeps.forM fun _ _ => steadfast.resolveBranch inside
    exact ((keeps model .refl).imp (fun _ _ moves => moves) fun _ _ _ => trivial).ends
  have resolved := ((ends_resolveBranches furnished.toResolving (.refl model) bare).and
    (proceeds_resolveBranches furnished.toProceeding furnished.declared model furnished.toProceeding)).and
    moves
  refine resolved.imp (fun _ last done => ?_) fun _ _ => trivial
  obtain ⟨⟨round, led⟩, moves⟩ := done
  exact ⟨Course.ready round furnished.toNesting, Course.ready led furnished.toProceeding,
    sole_of_moves moves furnished.sole⟩

/-- The variants of a class and of those nested in it, or the classes of the branches of an interface: all
that are told are made as each one is. -/
theorem synthesizingBranches (each : EachVariant context first holds)
    (furnished : Furnished context first owner floor start)
    (whole : (first.declaration owner).kind = .concrete →
      start.Whole owner (first.declaration owner).record)
    (bare : (first.declaration owner).kind ≠ .concrete →
      ∀ id ∈ first.ledger.scope (first.declaration owner).record,
        id ≠ (first.declaration owner).record → (start.ledger.record id).shape = none) :
    Ends (Modelling.synthesizingBranches context owner) start
      (fun told _ => ∀ synthesis ∈ told, holds synthesis) (fun _ => True) := by
  have none : ∀ synthesis ∈ ([] : List Synthesis), holds synthesis :=
    fun _ member => absurd member List.not_mem_nil
  have grows := furnished.arranged.grows owner
  -- The mark leaves the declaration as it was furnished.
  have marked := furnished.mark
  simp only [Modelling.synthesizingBranches]
  rw [ends_bind, ends_declaration, grows.record, grows.kind]
  split
  · rw [ends_bind, ends_updateDeclaration]
    split
    · rename_i chosen
      cases kind : (first.declaration owner).kind with
      | interface =>
        rw [ends_bind, ends_record, ends_bind]
        refine (marked.resolveBranches fun branch held => ?_).mono fun _ middle furnished' =>
          -- The nested classes follow on the furnished model.
          furnished'.synthesizingAllNested each
        have child : branch ∈ (first.ledger.record (first.declaration owner).record).children :=
          Record.mem_children.mpr (.inr (.inr (.inr (.inr (.inl held)))))
        -- An interface is not analysed inside before its branches are resolved.
        refine bare (by simp [kind]) branch (Ledger.mem_scope_of_child Ledger.mem_scope_self child) ?_
        rintro rfl
        exact Nat.lt_irrefl _ (furnished.surveyed.sound.forest.inside _ _ child).1
      | enumeration => exact absurd kind chosen
      -- A concrete class is staged itself before the classes nested in it.
      | concrete =>
        have staging := marked.staging_declared kind
          (OwnTurns.whole (@Round.resolve context first start owner floor).turns (whole kind))
        rw [ends_bind]
        refine ((tells_synthesizingVariants.ends (marked.addVariants staging)).and
          (staging.synthesizingVariants each)).imp (fun told middle done => ?_) fun _ _ => trivial
        rw [ends_bind]
        refine (done.1.synthesizingAllNested each).mono fun told' last made => ?_
        rw [ends_pure]
        -- Each variant was told of the class itself or of a nested one.
        exact fun synthesis member => (List.mem_append.mp member).elim (done.2 synthesis) (made synthesis)
    · exact none
  · exact none

end Furnished

/-- What is carried from declaration to declaration while branches are resolved. -/
structure Advancing (context : Context) (first : Model) (left : List DeclarationId) (model : Model) :
    Prop extends Proceeding first model where
  estates : ∃ homes, Estates context first homes left model
  sole : model.ledger.Sole first.ledger.size

namespace Advancing

variable {left : List DeclarationId} {model : Model}

/-- The branches of one declaration more are resolved. -/
theorem resolveVariants (advancing : Advancing context first (owner :: left) model)
    (declared : first.Declared) :
    Ends (resolveVariants context owner) model
      (fun _ last => Advancing context first left last) (fun _ => True) := by
  -- The estates say where the records of each class live.
  obtain ⟨homes, estates⟩ := advancing.estates
  have inside := estates.inside owner List.mem_cons_self
  have moves : Ends (Modelling.resolveVariants context owner) model
      (fun _ last => Moves context model last) (fun _ => True) := by
    have steadfast : Steadfast context model.declarations.size (Moves context model) := steadfast_moves
    have kept := steadfast.resolveVariants (advancing.arranged.size ▸ inside) model .refl
    exact (kept.imp (fun _ _ moves => moves) fun _ _ _ => trivial).ends
  -- The three parts of what advances are kept by three lemmas about one run.
  refine (((estates.resolve declared).and
    (proceeds_resolveVariants inside model advancing.toProceeding)).and moves).imp
      (fun _ last done => ?_) fun _ _ => trivial
  obtain ⟨⟨⟨-, estates'⟩, led⟩, moves⟩ := done
  exact ⟨led.kept advancing.toProceeding, estates', sole_of_moves moves advancing.sole⟩

/-- All variants of these that are told are made as each one is. -/
theorem synthesizingBranches (each : EachVariant context first holds)
    (advancing : Advancing context first (owner :: left) model)
    (declared : first.Declared) :
    Ends (Modelling.synthesizingBranches context owner) model
      (fun told last => Advancing context first left last ∧ ∀ synthesis ∈ told, holds synthesis)
      (fun _ => True) := by
  obtain ⟨homes, estates⟩ := advancing.estates
  -- The class waits with its estate, and is furnished for its own turn.
  have estate := estates.estate owner (estates.inside owner List.mem_cons_self)
  have waiting := estates.waiting owner List.mem_cons_self
  have furnished : Furnished context first owner model.ledger.size model :=
    ⟨estates.nesting declared, advancing.toProceeding, advancing.sole⟩
  exact ((tells_synthesizingBranches.ends (advancing.resolveVariants declared)).and
    (furnished.synthesizingBranches each estate.whole
      fun kind record acts => waiting.bare kind record (waiting.same ▸ acts))).imp
      (fun _ _ done => done) fun _ _ => trivial

end Advancing

/-- When all members are resolved, the branches of all declarations are left. -/
theorem ends_resolveAllMembers (declared : first.Declared) (grounded : first.Grounded context.tree) :
    Ends (first.ids.forM (resolveMembers context)) first
      (fun _ last => Advancing context first first.ids last) (fun _ => True) := by
  -- The run that tells comparisons is the one for which the estates were proved.
  have estates : Ends (first.ids.forM (resolveMembers context)) first
      (fun _ last => ∃ homes, Estates context first homes first.ids last) (fun _ => True) := by
    have tells : Tells (gather (comparingMembers context) first.ids)
        (first.ids.forM (resolveMembers context)) := Tells.gather fun _ => tells_comparingMembers
    rw [← tells, ends_map]
    refine (atRest_gather_all declared grounded).mono fun told middle settled => ?_
    obtain ⟨done, all, rest⟩ := settled
    exact ⟨_, rest.estates declared all⟩
  have moves : Ends (first.ids.forM (resolveMembers context)) first
      (fun _ last => Moves context first last) (fun _ => True) := by
    have steadfast : Steadfast context first.declarations.size (Moves context first) := steadfast_moves
    have keeps : Keeps (Moves context first) LacksName (first.ids.forM (resolveMembers context)) :=
      Keeps.forM fun _ member => steadfast.resolveMembers (Model.mem_ids.mp member)
    exact ((keeps first .refl).imp (fun _ _ moves => moves) fun _ _ _ => trivial).ends
  refine ((estates.and (heeds_resolveAllMembers declared grounded)).and moves).imp
    (fun _ last done => ?_) fun _ _ => trivial
  obtain ⟨⟨estates, proceeding⟩, moves⟩ := done
  -- The survey has made all records that there are, so none is later.
  -- All records of the survey lie below its size.
  have sole : first.ledger.Sole first.ledger.size :=
    ⟨fun id inside => declared.sound.owned.present id inside,
      fun id _ late inside => absurd inside (Nat.not_lt.mpr late)⟩
  exact ⟨proceeding, estates, sole_of_moves moves sole⟩

/-- A run does what one does that tells its variants, and what holds of each variant that is made holds of
all of these. -/
theorem ends_synthesizingBuild {roots : List RootSchema}
    (each : ∀ first : Model, EachVariant context first holds) :
    Ends (build context roots) {}
      (fun _ last => ∃ told, synthesizingBuild context roots {} = .ok told last ∧
        ∀ synthesis ∈ told, holds synthesis)
      (fun _ => True) := by
  have all : Ends (synthesizingBuild context roots) {}
      (fun told _ => ∀ synthesis ∈ told, holds synthesis) (fun _ => True) := by
    rw [synthesizingBuild, ends_bind]
    refine declared_roots.mono fun _ first declared => ?_
    rw [synthesizingResolve, ends_bind, ends_get]
    split
    · exact trivial
    · rename_i clear
      -- The resolution has passed the check for circles.
      have grounded : first.Grounded context.tree :=
        Model.grounded_of_circularBase? (Option.eq_none_iff_forall_ne_some.mpr clear)
      rw [ends_bind]
      refine (ends_resolveAllMembers declared grounded).mono fun _ middle advancing => ?_
      have gathered : Ends (gather (synthesizingBranches context) first.ids) middle
          (fun told last => Advancing context first [] last ∧ ∀ synthesis ∈ [] ++ told, holds synthesis)
          (fun _ => True) :=
        Ends.gather (fun left told state => Advancing context first left state ∧
            ∀ synthesis ∈ told, holds synthesis)
          ⟨advancing, fun _ member => absurd member List.not_mem_nil⟩
          fun owner left told state kept => (kept.1.synthesizingBranches (each first) declared).mono
            fun more last done => ⟨done.1, fun synthesis member =>
              (List.mem_append.mp member).elim (kept.2 synthesis) (done.2 synthesis)⟩
      exact gathered.mono fun told last kept => kept.2
  -- The plain run ends where the one that tells its variants does.
  rw [← tells_synthesizingBuild, ends_map]
  unfold Ends at all ⊢
  split at all
  · rename_i told last ran
    exact ⟨told, ran, all⟩
  · trivial

end Modelling

end SchemaClasses
