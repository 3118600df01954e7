import SchemaClasses.Proofs.Catalogue.Closure
import SchemaClasses.Proofs.Catalogue.Forests
import SchemaClasses.Proofs.Reading.Roots

/-! Dotted paths: a path leads to one class, unless a package is spelled like a class around another one. -/

namespace SchemaClasses

/-- A bound on how many classes lie around a class: those that were nested before it. -/
def ClassRef.depth : ClassRef → Nat
  | .declaration _ => 0
  | .nested _ index => index + 1

namespace Model

/-- The class in which a class lies directly. -/
def around? (model : Model) : ClassRef → Option ClassRef
  | .declaration _ => none
  | .nested owner index => (model.declaration owner).nested[index]?.map fun nested =>
      nested.parent.elim (.declaration owner) (.nested owner)

/-- Whether a class lies around another one, at any distance. -/
def Surrounds (model : Model) : ClassRef → ClassRef → Prop :=
  Relation.TransGen fun outer inner => model.around? inner = some outer

/-- The package of a class. -/
def packageOf (model : Model) : ClassRef → Option String
  | .declaration id => (model.declaration id).package
  | .nested owner _ => (model.declaration owner).package

/-- Whether the package of one class is spelled like the path of a class around another one. -/
def Shadows (model : Model) (ref other : ClassRef) : Prop :=
  ∃ outer, model.Surrounds outer other ∧ model.packageOf ref = some (model.classPath outer)

/-- The declarations of a run have names without dots, and no two of a package have the same name. -/
structure Addressed (model : Model) : Prop where
  identifiers : ∀ id : DeclarationId, id.index < model.declarations.size →
    isIdentifier (model.declaration id).name = true
  apart : ∀ a b : DeclarationId, a.index < model.declarations.size →
    b.index < model.declarations.size → (model.declaration a).package = (model.declaration b).package →
    (model.declaration a).name = (model.declaration b).name → a = b

variable {model : Model} {a b outer inner : ClassRef}

/-- A class that lies in another one has its path, and then its own name. -/
theorem classPath_of_around? (orderly : ∀ id, (model.declaration id).Orderly)
    (lies : model.around? inner = some outer) :
    ∃ name, '.' ∉ name.toList ∧ model.classPath inner = model.classPath outer ++ "." ++ name := by
  cases inner with
  | declaration id => cases lies
  | nested owner index =>
    obtain ⟨nested, there, rfl⟩ := Option.map_eq_some_iff.mp lies
    refine ⟨nested.name, ?_, classPath_nested (orderly owner).parent there⟩
    exact dot_notMem_of_isIdentifier ((orderly owner).identifiers nested (Array.mem_of_getElem? there))

/-- A class that lies in another one has its package. -/
theorem packageOf_around? (lies : model.around? inner = some outer) :
    model.packageOf inner = model.packageOf outer := by
  cases inner with
  | declaration id => cases lies
  | nested owner index =>
    obtain ⟨nested, -, rfl⟩ := Option.map_eq_some_iff.mp lies
    cases nested.parent <;> rfl

/-- A class that lies in another one comes behind it. -/
theorem depth_lt_of_around? (orderly : ∀ id, (model.declaration id).Orderly)
    (lies : model.around? inner = some outer) : outer.depth < inner.depth := by
  cases inner with
  | declaration id => cases lies
  | nested owner index =>
    obtain ⟨nested, there, rfl⟩ := Option.map_eq_some_iff.mp lies
    cases around : nested.parent with
    | none => exact Nat.succ_pos index
    | some parent => exact Nat.succ_lt_succ ((orderly owner).parent index nested there parent around)

/-- A class is declared for a document, or it lies in another class that is there. -/
theorem declared_or_around? (orderly : ∀ id, (model.declaration id).Orderly)
    (there : model.HasClass a) :
    (∃ id, a = .declaration id ∧ id.index < model.declarations.size) ∨
      ∃ outer, model.around? a = some outer ∧ model.HasClass outer := by
  cases a with
  | declaration id => exact .inl ⟨id, rfl, there⟩
  | nested owner index =>
    have inside : index < (model.declaration owner).nested.size := there
    have held := Array.getElem?_eq_getElem inside
    refine .inr ⟨_, by rw [around?, held]; rfl, ?_⟩
    dsimp only
    cases around : (model.declaration owner).nested[index].parent with
    | some parent =>
      exact Nat.lt_trans ((orderly owner).parent index _ held parent around) inside
    | none =>
      -- Nothing is nested in what is not declared.
      show owner.index < model.declarations.size
      by_contra past
      rw [declaration_of_size_le (Nat.not_lt.mp past)] at inside
      exact absurd inside (Nat.not_lt_zero _)

/-- Two classes that lie in the same one and have the same path are one class. -/
theorem eq_of_around?_eq (orderly : ∀ id, (model.declaration id).Orderly) (there : model.HasClass a)
    (there' : model.HasClass b) (lies : model.around? a = some outer)
    (lies' : model.around? b = some outer) (same : model.classPath a = model.classPath b) : a = b := by
  cases a with
  | declaration id => cases lies
  | nested owner index =>
    cases b with
    | declaration id => cases lies'
    | nested owner' other =>
      obtain ⟨nested, -, rfl⟩ := Option.map_eq_some_iff.mp lies
      obtain ⟨nested', -, shared⟩ := Option.map_eq_some_iff.mp lies'
      -- Both lie in the same scope, so they are nested in one declaration.
      have owners : owner' = owner := by
        cases around : nested.parent <;> cases around' : nested'.parent <;>
          simp_all
      subst owners
      rw [classPath_inj (orderly owner') there there' same]

/-- What stands before the last dot of a qualified name is the package. -/
theorem package_eq_of_qualify {package : Option String} {name path last : String}
    (whole : '.' ∉ name.toList) (whole' : '.' ∉ last.toList)
    (same : Declaration.qualify package name = path ++ "." ++ last) :
    package = some path ∧ name = last := by
  cases package with
  | some package =>
    obtain ⟨rfl, rfl⟩ := append_dot_inj whole whole' same
    exact ⟨rfl, rfl⟩
  -- Without a package the name would have to have a dot.
  | none =>
    have dotted : '.' ∈ name.toList := by
      rw [show name = path ++ "." ++ last from same]
      simp
    exact absurd dotted whole

namespace Addressed

/-- Declarations with the same qualified name are one declaration. -/
theorem eq_of_qualifiedName (addressed : model.Addressed) {id other : DeclarationId}
    (inside : id.index < model.declarations.size) (inside' : other.index < model.declarations.size)
    (same : (model.declaration id).qualifiedName = (model.declaration other).qualifiedName) :
    id = other := by
  have whole := dot_notMem_of_isIdentifier (addressed.identifiers id inside)
  have whole' := dot_notMem_of_isIdentifier (addressed.identifiers other inside')
  unfold Declaration.qualifiedName at same
  -- A name without a package has no dot, so both have a package or none has one.
  cases package : (model.declaration other).package with
  | some path =>
    rw [package] at same
    obtain ⟨package', name⟩ := package_eq_of_qualify whole whole' same
    exact addressed.apart id other inside inside' (package'.trans package.symm) name
  | none =>
    cases package' : (model.declaration id).package with
    | some path =>
      rw [package'] at same
      rw [(package_eq_of_qualify whole' whole same.symm).1] at package
      cases package
    | none =>
      rw [package, package'] at same
      exact addressed.apart id other inside inside' (package'.trans package.symm) same

/-- A declaration with the path of a class inside another one is in a package that is spelled like that
one. -/
theorem shadows (addressed : model.Addressed) (orderly : ∀ id, (model.declaration id).Orderly)
    {id : DeclarationId} (inside : id.index < model.declarations.size)
    (lies : model.around? b = some outer)
    (same : model.classPath (.declaration id) = model.classPath b) :
    model.Shadows (.declaration id) b := by
  obtain ⟨name, plain, path⟩ := classPath_of_around? orderly lies
  have whole := dot_notMem_of_isIdentifier (addressed.identifiers id inside)
  exact ⟨outer, .single lies, (package_eq_of_qualify whole plain (same.trans path)).1⟩

/-- Two classes with the same path are one class, or the package of one of them is spelled like a class
around the other. -/
theorem eq_or_shadows (addressed : model.Addressed) (orderly : ∀ id, (model.declaration id).Orderly)
    (there : model.HasClass a) (there' : model.HasClass b)
    (same : model.classPath a = model.classPath b) :
    a = b ∨ model.Shadows a b ∨ model.Shadows b a := by
  -- The last names are taken away from both paths, so the induction is on the classes around.
  induction size : a.depth using Nat.strong_induction_on generalizing a b with
  | _ size ih =>
    subst size
    -- A declared class has nothing around it, so its path is that of another class only if a
    -- package is spelled so.
    rcases declared_or_around? orderly there with ⟨id, rfl, inside⟩ | ⟨outer, lies, held⟩
    · rcases declared_or_around? orderly there' with ⟨other, rfl, inside'⟩ | ⟨outer', lies', -⟩
      · exact .inl (congrArg _ (addressed.eq_of_qualifiedName inside inside' same))
      · exact .inr (.inl (addressed.shadows orderly inside lies' same))
    · rcases declared_or_around? orderly there' with ⟨other, rfl, inside'⟩ | ⟨outer', lies', held'⟩
      · exact .inr (.inr (addressed.shadows orderly inside' lies same.symm))
      · obtain ⟨name, plain, path⟩ := classPath_of_around? orderly lies
        obtain ⟨name', plain', path'⟩ := classPath_of_around? orderly lies'
        -- Both lie in classes, and the paths of these are the same without the last names.
        obtain ⟨around, -⟩ := append_dot_inj plain plain' (path.symm.trans (same.trans path'))
        rcases ih _ (depth_lt_of_around? orderly lies) held held' around rfl with
          equal | shadows | shadows
        · subst equal
          exact .inl (eq_of_around?_eq orderly there there' lies lies' same)
        · obtain ⟨far, surrounds, spelled⟩ := shadows
          exact .inr (.inl ⟨far, surrounds.tail lies', (packageOf_around? lies).trans spelled⟩)
        · obtain ⟨far, surrounds, spelled⟩ := shadows
          exact .inr (.inr ⟨far, surrounds.tail lies, (packageOf_around? lies').trans spelled⟩)

/-- Before anything is declared. -/
theorem empty : Addressed {} where
  identifiers _ inside := absurd inside (Nat.not_lt_zero _)
  apart _ _ inside := absurd inside (Nat.not_lt_zero _)

/-- What was surveyed or counted plays no part. -/
theorem congr {other : Model} (addressed : model.Addressed)
    (same : other.declarations = model.declarations) : other.Addressed := by
  obtain ⟨survey, declarations, counted⟩ := other
  subst same
  exact ⟨addressed.identifiers, addressed.apart⟩

/-- A class joins under a name that is free in its package. -/
theorem declare (addressed : model.Addressed) {added : Declaration}
    (identifier : isIdentifier added.name = true)
    (free : ∀ id : DeclarationId, id.index < model.declarations.size →
      (model.declaration id).package = added.package → (model.declaration id).name ≠ added.name) :
    { model with declarations := model.declarations.push added }.Addressed := by
  refine ⟨fun id inside => ?_, fun a b insideA insideB package name => ?_⟩
  · -- The new name was an identifier before it joined.
    rw [declaration_push]
    split
    · exact identifier
    · rw [Array.size_push] at inside
      exact addressed.identifiers id (by omega)
  · -- Only the new declaration could share its name with another one of its package.
    rw [Array.size_push] at insideA insideB
    rw [declaration_push, declaration_push] at package name
    refine DeclarationId.ext ?_
    split at package
    · split at package
      · omega
      · rename_i newA oldB
        rw [if_pos newA, if_neg oldB] at name
        exact absurd name.symm (free b (by omega) package.symm)
    · rename_i oldA
      split at package
      · rename_i newB
        rw [if_neg oldA, if_pos newB] at name
        exact absurd name (free a (by omega) package)
      · rename_i oldB
        rw [if_neg oldA, if_neg oldB] at name
        exact congrArg _ (addressed.apart a b (by omega) (by omega) package name)

end Addressed

end Model

/-- A class is called an identifier after its document. -/
theorem isIdentifier_of_classNameOfUri? {naming : NamingSettings} {uri name : String}
    (named : naming.classNameOfUri? uri = some name) : isIdentifier name = true := by
  unfold NamingSettings.classNameOfUri? at named
  dsimp only at named
  split at named
  · exact nomatch named
  · rw [← Option.some.inj named]
    exact isIdentifier_className

namespace Modelling

variable {context : Context} {model : Model} {root : RootSchema}

/-- What a class is called is an identifier, unless a name is set for its document. -/
theorem ends_className_of_unset {done : String → Model → Prop} {failed : Model → Prop}
    (unset : context.settings.classNames.find? root.uri = none)
    (called : ∀ name counted, isIdentifier name = true → done name { model with counted }) :
    Ends (className context root) model done failed := by
  unfold className
  rw [unset]
  dsimp only
  split
  · rename_i name named
    refine called name model.counted ?_
    -- The name comes from the document's URI, or else from its title.
    cases ofUri : context.settings.naming.classNameOfUri? root.uri with
    | some found =>
      rw [ofUri] at named
      cases named
      exact isIdentifier_of_classNameOfUri? ofUri
    | none =>
      rw [ofUri] at named
      obtain ⟨title, -, rfl⟩ := Option.map_eq_some_iff.mp named
      exact isIdentifier_className
  · -- Without a usable name the class is numbered, and digits may follow an identifier.
    exact called _ (model.counted + 1) (isIdentifier_append_toString (by decide) _)

/-- A class is declared under an identifier that no other class of its package has. -/
theorem addressed_declare {name uri : String} {package : Option String} {schema : SchemaId}
    {record : RecordId} {kind : ClassKind} (addressed : model.Addressed)
    (identifier : isIdentifier name = true) :
    Ends (declare name package uri schema record kind) model (fun _ last => last.Addressed)
      (fun _ => True) := by
  simp only [declare, ends_bind, ends_get]
  unfold allocateName
  -- The name is one that no declaration of the package has.
  split
  · rename_i allocated found
    refine addressed.declare (isIdentifier_of_allocate identifier found) fun id inside same taken => ?_
    have free := Array.any_eq_false.mp (free_of_allocate found) id.index inside
    have held : model.declaration id = model.declarations[id.index] := by
      simp [Model.declaration, Array.getD_eq_getD_getElem?, inside]
    rw [held] at same taken
    simp [same, taken] at free
  · trivial

/-- A document is declared under a path of its own. -/
theorem addressed_declareRoot (unset : context.settings.classNames.find? root.uri = none)
    (addressed : model.Addressed) :
    Ends (declareRoot context root) model (fun _ last => last.Addressed) (fun _ => True) := by
  simp only [declareRoot, ends_bind, ends_survey, ends_ledger]
  -- A survey changes no declaration, whatever it makes of the schema.
  have surveyed : Ends (Survey.begin context.tree root.schema) model.survey (fun _ _ => True)
      (fun _ => True) := by
    unfold Ends
    split <;> trivial
  refine surveyed.mono fun id survey _ => ?_
  split
  · simp only [ends_bind, ends_pure]
    exact ends_className_of_unset unset fun name counted identifier =>
      addressed_declare (addressed.congr rfl) identifier
  · simp only [ends_survey, Survey.ends_report]
    exact addressed.congr rfl

/-- All documents are declared under paths of their own. -/
theorem addressed_roots {roots : List RootSchema}
    (unset : ∀ root ∈ roots, context.settings.classNames.find? root.uri = none) :
    Ends (roots.forM (declareRoot context)) {} (fun _ last => last.Addressed) (fun _ => True) :=
  Ends.forM _ .empty fun root member _ addressed => addressed_declareRoot (unset root member) addressed

/-- A resolution leaves every declaration at its path. -/
theorem addressed_resolve (addressed : model.Addressed) :
    Ends (resolve context) model (fun _ last => last.Addressed) (fun _ => True) := by
  cases found : model.circularBase? context.tree with
  -- A circle ends the resolution before anything is written.
  | some id =>
    rw [Ends, resolve_of_circularBase? found]
    trivial
  | none =>
    -- Nothing that a resolution does touches the package or the name of a declaration.
    have lasting : Lasting context model.declarations.size
        (SamePart (fun declaration : Declaration => (declaration.package, declaration.name)) model) :=
      lasting_samePart (fun _ _ _ _ _ _ _ _ => rfl) fun _ _ _ => rfl
    have kept := lasting.resolveAll (fun _ => Model.mem_ids.mp) model ⟨rfl, fun _ => rfl⟩
    rw [Ends, resolve_of_grounded found]
    refine Closes.ends (kept.imp (fun _ last same => ?_) fun _ _ _ => trivial)
    have package (id : DeclarationId) :
        (last.declaration id).package = (model.declaration id).package :=
      congrArg Prod.fst (same.same id)
    have name (id : DeclarationId) : (last.declaration id).name = (model.declaration id).name :=
      congrArg Prod.snd (same.same id)
    -- Package and name of every declaration are those from before, and so are the comparisons.
    refine ⟨fun id inside => ?_, fun a b insideA insideB samePackage sameName => ?_⟩
    · rw [name]
      exact addressed.identifiers id (same.size ▸ inside)
    · rw [package, package] at samePackage
      rw [name, name] at sameName
      exact addressed.apart a b (same.size ▸ insideA) (same.size ▸ insideB) samePackage sameName

/-- At the end of a run without names set for documents, a dotted path is that of one class, unless the
package of one class is spelled like the path of a class around another one. -/
theorem paths_build {roots : List RootSchema}
    (unset : ∀ root ∈ roots, context.settings.classNames.find? root.uri = none) :
    Ends (build context roots) {}
      (fun _ last => ∀ ref other, last.HasClass ref → last.HasClass other →
        last.classPath ref = last.classPath other →
        ref = other ∨ last.Shadows ref other ∨ last.Shadows other ref)
      (fun _ => True) := by
  rw [build, ends_bind]
  refine (declared_roots.and (addressed_roots unset)).imp (fun _ model held => ?_) fun _ _ => trivial
  obtain ⟨declared, addressed⟩ := held
  -- The bound on the depth of the analysis is one that no run reaches.
  have tracks := @tracksTo_resolve context model (model.ledger.size + model.declarations.size + 1)
    (pure ()) (by omega) (by omega) declared.arranged
  have trails : Ends (resolve context) model (fun _ => Trail context model model) (fun _ => True) :=
    Closes.ends (tracks.2.imp (fun _ _ found => found.1) fun _ _ _ => trivial)
  refine (trails.and (addressed_resolve addressed)).imp (fun _ last held => ?_) fun _ _ => trivial
  obtain ⟨trail, addressed⟩ := held
  -- Along the trail every class joined behind the one around it, so that paths can be compared from the end.
  have orderly := (Trail.arranged trail declared.arranged).orderly
  exact fun ref other there there' same => addressed.eq_or_shadows orderly there there' same

end Modelling

/-- Two documents: one with an object for a property, and one in a directory that is named like the class
of the first. -/
def packagedSources : List SourceDocument :=
  [{ uri := "file:///s/a.json"
     content := .object [("type", .string "object"), ("properties", .object [("b",
       .object [("type", .string "object"), ("properties", .object [("x",
         .object [("type", .string "string")])])])])] },
   { uri := "file:///s/A/b.json"
     directories := ["A"]
     content := .object [("type", .string "object"), ("properties", .object [("y",
       .object [("type", .string "string")])])] }]

/-- Without a name set for a document, which the default settings do not do, the theorem holds of their
run. -/
theorem paths_build_packagedSources :
    ∃ roots tree last, (readRoots packagedSources).run {} = .ok roots tree ∧
      (Modelling.build { tree } roots).run {} = .ok () last ∧
      (∀ root ∈ roots, ({} : Settings).classNames.find? root.uri = none) ∧
      ∀ ref other, last.HasClass ref → last.HasClass other →
        last.classPath ref = last.classPath other →
        ref = other ∨ last.Shadows ref other ∨ last.Shadows other ref := by
  have builds : (built? packagedSources).isSome = true := by decide +kernel
  -- That the run succeeds is computed, and the rest is the theorem itself.
  obtain ⟨last, built⟩ := Option.isSome_iff_exists.mp builds
  obtain ⟨roots, tree, read, ran⟩ := exists_run_of_built? built
  have unset : ∀ root ∈ roots, ({} : Settings).classNames.find? root.uri = none := fun _ _ => rfl
  exact ⟨roots, tree, last, read, ran, unset, (Modelling.paths_build unset).of_ok ran⟩

/-- Whether no two classes have the same dotted path. -/
def Model.HasDistinctPaths (model : Model) : Prop :=
  ∀ ref other, model.HasClass ref → model.HasClass other →
    model.classPath ref = model.classPath other → ref = other

/-- The class nested in the first one and the class of the second document share the path `A.B`, though no
name is set for either. -/
theorem not_hasDistinctPaths_packagedSources :
    ∃ roots tree last, (readRoots packagedSources).run {} = .ok roots tree ∧
      (Modelling.build { tree } roots).run {} = .ok () last ∧
      (∀ root ∈ roots, ({} : Settings).classNames.find? root.uri = none) ∧
      ¬ last.HasDistinctPaths := by
  -- The clash is between the class nested first and the second declaration.
  have clash : (built? packagedSources).any fun last => decide
      (0 < (last.declaration ⟨0⟩).nested.size ∧ 1 < last.declarations.size ∧
        last.classPath (.nested ⟨0⟩ 0) = last.classPath (.declaration ⟨1⟩)) := by
    decide +kernel
  obtain ⟨last, built, clash⟩ := (Option.any_eq_true _ _).mp clash
  obtain ⟨roots, tree, read, ran⟩ := exists_run_of_built? built
  refine ⟨roots, tree, last, read, ran, fun _ _ => rfl, fun distinct => ?_⟩
  obtain ⟨inside, inside', same⟩ := of_decide_eq_true clash
  exact nomatch distinct (.nested ⟨0⟩ 0) (.declaration ⟨1⟩) inside inside' same

end SchemaClasses
