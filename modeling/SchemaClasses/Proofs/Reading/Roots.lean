import SchemaClasses.Proofs.Reading.Search
import SchemaClasses.Proofs.Resolution.Kinship

/-! The roots of a run: each document is read once under its own URI, which the last document of that
URI stands for, and no class is declared for two of them. -/

namespace SchemaClasses

namespace Keyed

variable {α : Type} {table : Keyed α} {key other : String} {value : α}

/-- What was inserted under a key is found there, and other keys keep their values. -/
theorem find?_insert :
    (table.insert key value).find? other = if other = key then some value else table.find? other := by
  -- The statement is about the list of entries, so the induction is on that.
  have within (entries : List (String × α)) :
      (insertInto key value entries).lookup other =
        if other = key then some value else entries.lookup other := by
    induction entries with
    | nil =>
      rw [insertInto, List.lookup_cons]
      by_cases same : other = key
      · simp [same]
      · simp [same, beq_false_of_ne same]
    | cons first rest ih =>
      obtain ⟨k, v⟩ := first
      rw [insertInto]
      -- Either the value is replaced here, or the key is looked for behind this entry.
      by_cases here : k = key
      · subst here
        rw [if_pos (by simp), List.lookup_cons, List.lookup_cons]
        by_cases same : other = k
        · simp [same]
        · simp [same, beq_false_of_ne same]
      · rw [if_neg (by simpa using here), List.lookup_cons, List.lookup_cons, ih]
        by_cases same : other = k
        · subst same
          simp [here]
        · simp [beq_false_of_ne same]
  exact within table.entries

/-- An entry after an insertion was there before, or is the one inserted. -/
theorem mem_insert {entry : String × α} (member : entry ∈ (table.insert key value).entries) :
    entry = (key, value) ∨ entry ∈ table.entries := by
  -- The statement is about the list of entries, so the induction is on that.
  have within (entries : List (String × α)) (member : entry ∈ insertInto key value entries) :
      entry = (key, value) ∨ entry ∈ entries := by
    induction entries with
    | nil => exact .inl (by simpa [insertInto] using member)
    | cons first rest ih =>
      obtain ⟨k, v⟩ := first
      rw [insertInto] at member
      -- A value under the same key is replaced, else the pair joins at the end.
      split at member
      · rename_i here
        have same : k = key := by simpa using here
        rcases List.mem_cons.mp member with rfl | member
        · exact .inl (by rw [same])
        · exact .inr (List.mem_cons_of_mem _ member)
      · rcases List.mem_cons.mp member with rfl | member
        · exact .inr List.mem_cons_self
        · exact (ih member).imp_right (List.mem_cons_of_mem _)
  exact within table.entries member

end Keyed

/-- The URI that a document is known by. -/
def SourceDocument.ownUri (source : SourceDocument) : String :=
  Documents.ownUri source.uri source.content

/-- The content that stands for a URI: that of the last document known by it. -/
def latest? (sources : List SourceDocument) (uri : String) : Option Json :=
  (sources.reverse.find? fun source => source.ownUri = uri).map (·.content)

/-- Documents as they are handed in: their own URIs have no `#`, and their contents are proper. -/
def HandedIn (sources : List SourceDocument) : Prop :=
  ∀ source ∈ sources, '#' ∉ source.ownUri.toList ∧ source.content.isProper = true

variable {sources : List SourceDocument}

/-- One more document is registered behind the others. -/
theorem registerDocuments_concat {source : SourceDocument} :
    registerDocuments (sources ++ [source]) =
      ((registerDocuments sources).1 ++ [(source.ownUri, source.directories)],
        ((registerDocuments sources).2.add source.uri source.content).2) := by
  rw [registerDocuments, List.foldl_append]
  rfl

/-- Each document is an input under its own URI. -/
theorem inputs_registerDocuments :
    (registerDocuments sources).1 =
      sources.map fun source => (source.ownUri, source.directories) := by
  induction sources using List.reverseRecOn with
  | nil => rfl
  | append_singleton sources source ih =>
    rw [registerDocuments_concat, ih, List.map_append]
    rfl

/-- Under a URI the last document known by it is found. -/
theorem find?_registerDocuments {uri : String} :
    (registerDocuments sources).2.contents.find? uri = latest? sources uri := by
  -- Documents are registered from the first to the last, so the induction is from the end.
  induction sources using List.reverseRecOn with
  | nil => rfl
  | append_singleton sources source ih =>
    rw [registerDocuments_concat]
    show (Keyed.insert _ source.ownUri source.content).find? uri = _
    rw [Keyed.find?_insert, ih, latest?, latest?, List.reverse_append]
    by_cases same : uri = source.ownUri
    · simp [same]
    · simp [same, Ne.symm same]

/-- Of two documents with one `$id` the second stands for both, whatever `#` they put behind it. -/
example : latest?
    [{ uri := "urn:a", content := .object [("$id", .string "urn:x")] },
      { uri := "urn:b", content := .object [("$id", .string "urn:x#")] }] "urn:x" =
    some (.object [("$id", .string "urn:x#")]) := rfl

/-- A document is known by its own URI. -/
theorem isSome_latest? {source : SourceDocument} (member : source ∈ sources) :
    (latest? sources source.ownUri).isSome = true := by
  rw [latest?, Option.isSome_map, List.find?_isSome]
  exact ⟨source, List.mem_reverse.mpr member, by simp⟩

/-- A document that shares its own URI with no other one stands for it. -/
theorem latest?_of_nodup {source : SourceDocument} (apart : (sources.map (·.ownUri)).Nodup)
    (member : source ∈ sources) : latest? sources source.ownUri = some source.content := by
  obtain ⟨found, here⟩ := Option.isSome_iff_exists.mp (isSome_latest? member)
  obtain ⟨other, found', rfl⟩ := Option.map_eq_some_iff.mp here
  have same : other.ownUri = source.ownUri := by simpa using List.find?_some found'
  have listed : other ∈ sources := List.mem_reverse.mp (List.mem_of_find?_eq_some found')
  rw [here, List.inj_on_of_nodup_map apart listed member same]

/-- Documents that are handed in make up a proper set. -/
theorem proper_registerDocuments (handedIn : HandedIn sources) :
    (registerDocuments sources).2.Proper := by
  -- Every entry and every alias was made for one of the documents.
  have made : (∀ entry ∈ (registerDocuments sources).2.contents.entries,
        '#' ∉ entry.1.toList ∧ entry.2.isProper = true) ∧
      ∀ entry ∈ (registerDocuments sources).2.aliases.entries, '#' ∉ entry.2.toList := by
    induction sources using List.reverseRecOn with
    | nil =>
      exact ⟨fun _ listed => absurd listed List.not_mem_nil,
        fun _ listed => absurd listed List.not_mem_nil⟩
    | append_singleton sources source ih =>
      obtain ⟨contents, aliases⟩ := ih fun other listed => handedIn other (List.mem_append_left _ listed)
      -- One more document joins under its own URI, which is plain, and it may get an alias.
      obtain ⟨plain, proper⟩ := handedIn source (by simp)
      rw [registerDocuments_concat]
      refine ⟨fun entry listed => ?_, fun entry listed => ?_⟩
      · rcases Keyed.mem_insert listed with rfl | listed
        · exact ⟨plain, proper⟩
        · exact contents entry listed
      · simp only [Documents.add] at listed
        split at listed
        · exact aliases entry listed
        · rcases Keyed.mem_insert listed with rfl | listed
          · exact plain
          · exact aliases entry listed
  exact .of_entries made.1 made.2

/-- Whether a root was read for a document: it is the schema at the URI that the document is known by. -/
structure ReadFor (tree : SchemaTree) (input : String × List String) (root : RootSchema) : Prop where
  uri : root.uri = input.1
  directories : root.directories = input.2
  found : tree.find? (Place.location ⟨input.1, ""⟩) = some root.schema

namespace Reading

variable {documents : Documents} {tree : SchemaTree}

/-- Documents are read one after the other, and what was read for one stays. -/
theorem searchesFrom_roots (proper : documents.Proper) {inputs : List (String × List String)}
    (registered : ∀ input ∈ inputs, documents.canonical? input.1 = some input.1)
    (explored : Explored documents (fun place => '#' ∉ place.document.toList) tree) :
    SearchesFrom documents (fun place => '#' ∉ place.document.toList) tree
      (inputs.mapM fun (uri, directories) => do
        return (⟨uri, directories, ← documents.root uri⟩ : RootSchema))
      fun roots last => List.Forall₂ (ReadFor last) inputs roots := by
  induction inputs generalizing tree with
  | nil => exact ⟨.refl explored, .nil⟩
  | cons input others ih =>
    have named := registered input List.mem_cons_self
    have inside : '#' ∉ input.1.toList := proper.unhashed _ _ named
    -- Each document has a root that is read in the tree that the earlier ones have left.
    unfold SearchesFrom
    rw [List.mapM_cons, closes_bind, closes_bind, Documents.root_eq named]
    refine (searchesFrom_read proper proper.territory inside explored).mono fun id middle held => ?_
    obtain ⟨progress, found⟩ := held
    rw [closes_pure, closes_bind]
    refine (ih (fun other listed => registered other (List.mem_cons_of_mem _ listed))
      progress.explored).mono fun roots last held => ?_
    obtain ⟨further, read⟩ := held
    exact ⟨progress.trans further, .cons ⟨rfl, rfl, further.continues.find? found⟩ read⟩

end Reading

/-- Every document has a root, in the order given and under its own URI. It is the only schema at that
URI, and it holds what the last document known by that URI says. -/
theorem holds_readRoots (handedIn : HandedIn sources) :
    Ends (readRoots sources) {}
      (fun roots tree => List.Forall₂ (fun source root =>
        ReadFor tree (source.ownUri, source.directories) root ∧
          latest? sources source.ownUri = some (tree.schema root.schema).body.content) sources roots)
      (fun _ => True) := by
  have proper := proper_registerDocuments handedIn
  have registered : ∀ input ∈ (registerDocuments sources).1,
      (registerDocuments sources).2.canonical? input.1 = some input.1 := by
    -- The URIs that are handed on are the own ones of the documents, which name themselves.
    intro input listed
    rw [inputs_registerDocuments] at listed
    obtain ⟨source, member, rfl⟩ := List.mem_map.mp listed
    rw [Documents.canonical?, Keyed.contains, find?_registerDocuments, if_pos (isSome_latest? member)]
  have searches := Reading.searchesFrom_roots proper registered .empty
  refine Closes.ends (searches.imp (fun roots tree held => ?_) fun _ _ _ => trivial)
  obtain ⟨progress, read⟩ := held
  -- Sources and roots are paired position by position.
  rw [inputs_registerDocuments, List.forall₂_map_left_iff, List.forall₂_iff_get] at read
  obtain ⟨length, read⟩ := read
  refine List.forall₂_iff_get.mpr ⟨length, fun i inside inside' => ?_⟩
  have read := read i inside inside'
  have plain := (handedIn _ (List.get_mem sources ⟨i, inside⟩)).1
  generalize sources.get ⟨i, inside⟩ = source at read plain
  generalize roots.get ⟨i, inside'⟩ = root at read
  refine ⟨read, ?_⟩
  -- Nothing was known before, so the root is complete.
  have settled := (progress.settled ⟨source.ownUri, ""⟩ plain
    (Option.isSome_iff_exists.mpr ⟨_, read.found⟩)).resolve_left SchemaTree.not_knows_empty
  obtain ⟨id, found, content⟩ := settled.content
  have same : id = root.schema := Option.some.inj (found.symm.trans read.found)
  rw [same, Documents.valueAt?, find?_registerDocuments] at content
  obtain ⟨whole, latest, selected⟩ := Option.bind_eq_some_iff.mp content
  rw [latest]
  exact selected

/-- Two roots are one schema exactly if their documents are known by the same URI. -/
theorem schema_eq_iff {tree : SchemaTree} {a b : RootSchema} {uri uri' : String}
    (found : tree.find? (Place.location ⟨uri, ""⟩) = some a.schema)
    (found' : tree.find? (Place.location ⟨uri', ""⟩) = some b.schema)
    (plain : '#' ∉ uri.toList) (plain' : '#' ∉ uri'.toList) : a.schema = b.schema ↔ uri = uri' := by
  constructor
  · -- The location tells the URI of a document, since none of these has a `#`.
    intro same
    have here := (SchemaTree.find?_eq_some.mp found).2.1
    have there := (SchemaTree.find?_eq_some.mp found').2.1
    have location : Place.location ⟨uri, ""⟩ = Place.location ⟨uri', ""⟩ := by
      rw [← here, ← there, same]
    exact congrArg Place.document (Documents.place_inj plain plain' location)
  · rintro rfl
    exact Option.some.inj (found.symm.trans found')

/-- The schemas that classes are declared for, in the order of their declarations. -/
def Model.schemas (model : Model) : List SchemaId := model.declarations.toList.map (·.schema)

namespace Modelling

variable {context : Context} {first model : Model} {roots : List RootSchema}

/-- What the document of a root does to a model: a class joins that is declared for it, or it is
reported. -/
inductive Registers (tree : SchemaTree) (root : RootSchema) (before after : Model) : Prop where
  | declared (schemas : after.schemas = before.schemas ++ [root.schema])
  | reported (schemas : after.schemas = before.schemas)
      (found : Diagnostic.skippedSchema (tree.location root.schema)
        "not an object, enum or union schema" ∈ after.survey.diagnostics.items)

/-- The models that the documents of some roots lead to, one after the other. -/
inductive Registered (tree : SchemaTree) : List RootSchema → Model → Prop where
  | none : Registered tree [] {}
  | more {roots : List RootSchema} {root : RootSchema} {before after : Model}
      (so : Registered tree roots before) (registers : Registers tree root before after) :
      Registered tree (roots ++ [root]) after

/-- Classes are declared for some of the roots, each of which counts once and in order. -/
theorem Registered.sublist {tree : SchemaTree} (registered : Registered tree roots model) :
    model.schemas.Sublist (roots.map (·.schema)) := by
  induction registered with
  | none => exact .slnil
  -- A declared root adds its schema at the end, and a reported one adds none.
  | more _ registers ih =>
    rw [List.map_append]
    cases registers with
    | declared schemas =>
      rw [schemas]
      exact ih.append (.refl _)
    | reported schemas _ =>
      rw [schemas]
      exact ih.trans (List.sublist_append_left _ _)

/-- A document is declared or reported. -/
theorem registers_declareRoot {root : RootSchema} :
    Ends (declareRoot context root) model (fun _ => Registers context.tree root model)
      (fun _ => True) := by
  simp only [declareRoot, ends_bind, ends_survey, ends_ledger]
  -- Nothing needs to be known here of the survey of the schema.
  have surveyed : Ends (Survey.begin context.tree root.schema) model.survey (fun _ _ => True)
      (fun _ => True) := by
    unfold Ends
    split <;> trivial
  refine surveyed.mono fun id survey _ => ?_
  -- With a record to stand for it the document is declared, and otherwise it is reported.
  split
  · simp only [ends_bind, ends_pure]
    refine ends_className fun name counted => ends_declare (fun name => .declared ?_) trivial
    simp [Model.schemas]
  · simp only [ends_survey, Survey.ends_report]
    refine .reported rfl ?_
    simp only [Diagnostics.push]
    split
    · assumption
    · simp

/-- All documents are declared or reported, one after the other. -/
theorem registered_roots :
    Ends (roots.forM (declareRoot context)) {} (fun _ => Registered context.tree roots)
      (fun _ => True) := by
  -- The invariant is told for the roots that were handled so far.
  let kept (left : List RootSchema) (model : Model) : Prop :=
    ∃ before, before ++ left = roots ∧ Registered context.tree before model
  have all : Ends (roots.forM (declareRoot context)) {} (fun _ => kept []) (fun _ => True) := by
    refine Ends.forM_rest kept ⟨[], rfl, .none⟩ fun root rest model held => ?_
    obtain ⟨before, whole, registered⟩ := held
    refine registers_declareRoot.mono fun _ last registers => ?_
    exact ⟨before ++ [root], by simpa using whole, registered.more registers⟩
  refine all.mono fun _ last held => ?_
  obtain ⟨before, whole, registered⟩ := held
  rw [← whole, List.append_nil]
  exact registered

/-- Where all declarations have the schemas that they had, the list of these is the same. -/
theorem schemas_eq_of_samePart (same : SamePart Declaration.schema first model) :
    model.schemas = first.schemas := by
  refine List.ext_getElem (by simpa [Model.schemas] using same.size) fun i inside inside' => ?_
  simp only [Model.schemas, List.length_map, Array.length_toList] at inside inside'
  simpa [Model.schemas, Model.declaration, Array.getD_eq_getD_getElem?, inside, inside'] using
    same.same ⟨i⟩

/-- A resolution changes nothing about what the classes are declared for. -/
theorem schemas_resolve :
    Ends (resolve context) first (fun _ last => last.schemas = first.schemas) (fun _ => True) := by
  -- A circle ends the resolution before anything is written.
  cases found : first.circularBase? context.tree with
  | some id =>
    rw [Ends, resolve_of_circularBase? found]
    trivial
  | none =>
    have lasting : Lasting context first.declarations.size (SamePart Declaration.schema first) :=
      lasting_samePart (fun _ _ _ _ _ _ _ _ => rfl) fun _ _ _ => rfl
    have kept := lasting.resolveAll (fun _ => Model.mem_ids.mp) first ⟨rfl, fun _ => rfl⟩
    rw [Ends, resolve_of_grounded found]
    exact Closes.ends (kept.imp (fun _ _ same => schemas_eq_of_samePart same) fun _ _ _ => trivial)

/-- Without two documents known by the same URI, every document is read into a schema of its own that
holds what it says, and no two classes are declared for one schema. -/
theorem apart_build {settings : Settings} {roots : List RootSchema} {tree : SchemaTree}
    (handedIn : HandedIn sources) (apart : (sources.map (·.ownUri)).Nodup)
    (read : (readRoots sources).run {} = .ok roots tree) :
    List.Forall₂ (fun source root => (tree.schema root.schema).body.content = source.content)
      sources roots ∧
    Ends (build { tree, settings } roots) {} (fun _ last =>
      last.schemas.Nodup ∧ ∃ before, Registered tree roots before ∧ last.schemas = before.schemas)
      (fun _ => True) := by
  have held := (holds_readRoots handedIn).of_ok read
  -- Sources and roots are paired position by position.
  rw [List.forall₂_iff_get] at held
  obtain ⟨length, held⟩ := held
  have nodup : (roots.map (·.schema)).Nodup := by
    rw [List.Nodup, List.pairwise_map, List.pairwise_iff_getElem] at apart ⊢
    intro i j inside inside' sooner same
    rw [← length] at inside inside'
    -- Two roots that are one schema are those of documents known by one URI.
    have plain := (handedIn _ (List.getElem_mem inside)).1
    have plain' := (handedIn _ (List.getElem_mem inside')).1
    refine apart i j inside inside' sooner ?_
    exact (schema_eq_iff (held i inside (length ▸ inside)).1.found
      (held j inside' (length ▸ inside')).1.found plain plain').mp same
  refine ⟨List.forall₂_iff_get.mpr ⟨length, fun i inside inside' => ?_⟩, ?_⟩
  · -- With one document for each URI, the last one known by it is the document itself.
    have latest := (held i inside inside').2
    rw [latest?_of_nodup apart (List.get_mem sources ⟨i, inside⟩)] at latest
    exact (Option.some.inj latest).symm
  · rw [build, ends_bind]
    refine registered_roots.mono fun _ before registered => ?_
    refine schemas_resolve.mono fun _ last same => ?_
    exact ⟨same ▸ nodup.sublist registered.sublist, before, registered, same⟩

end Modelling

end SchemaClasses
