import SchemaClasses.Proofs.Resolution.Kinship

/-! The order in which classes are analysed: a circle of bases is refused before anything is touched,
and without one no class is analysed before its base. -/

namespace SchemaClasses

/-- Whether it is the turn of a class: it was not analysed yet, and its base was, unless that had been
marked as analysed before the first analysis. -/
structure InTurn (context : Context) (first : Model) (done : List DeclarationId) (model : Model)
    (id : DeclarationId) : Prop where
  fresh : id ∉ done
  behind : ∀ base, model.Extends context.tree id base →
    base ∈ done ∨ (first.declaration base).isAnalysed = true

/-- The states that analyses in turn lead to, with the classes whose analyses have completed. -/
inductive History (context : Context) (first : Model) : List DeclarationId → Model → Prop where
  | start : History context first [] first
  | begun {done : List DeclarationId} {model : Model} {id : DeclarationId}
      (so : History context first done model) :
      History context first done
        (model.updateDeclaration id fun declaration => { declaration with isAnalysed := true })
  | analysed {done : List DeclarationId} {model last : Model} {id : DeclarationId}
      (so : History context first done model) (turn : InTurn context first done model id)
      (ran : Modelling.analyseDeclaration context id model = .ok () last) :
      History context first (id :: done) last

/-- A state in which the analysis of a class has failed that was in turn. -/
def Broken (context : Context) (first last : Model) : Prop :=
  ∃ done model id fault, History context first done model ∧ InTurn context first done model id ∧
    Modelling.analyseDeclaration context id model = .error fault last

namespace Modelling

variable {context : Context} {first model : Model} {done : List DeclarationId}
variable {begun : Set DeclarationId} {id : DeclarationId}

/-- The classes that were analysed by the time some analyses have completed. -/
def finished (first : Model) (done : List DeclarationId) : Set DeclarationId :=
  { id | id ∈ done ∨ (first.declaration id).isAnalysed = true }

/-- A state between analyses: what extends what is as it was at first, and the classes begun are
marked. -/
structure Underway (context : Context) (first : Model) (begun : Set DeclarationId)
    (done : List DeclarationId) (model : Model) : Prop where
  history : History context first done model
  size : model.declarations.size = first.declarations.size
  base? : ∀ id, model.base? context.tree id = first.base? context.tree id
  marks : ∀ id, id.index < first.declarations.size →
    ((model.declaration id).isAnalysed = true ↔ id ∈ begun)

/-- What of a declaration decides which class it extends, and whether it is marked. -/
def footing (declaration : Declaration) : SchemaId × ClassKind × Bool :=
  (declaration.schema, declaration.kind, declaration.isAnalysed)

/-- Where all declarations stand as they stood, the same classes extend the same ones. -/
theorem base?_of_samePart {last : Model} (same : SamePart footing model last) :
    last.base? context.tree id = model.base? context.tree id :=
  Model.base?_congr same.size (fun other => congrArg Prod.fst (same.same other))
    fun other => congrArg (·.2.1) (same.same other)

/-- A class is begun. -/
theorem Underway.mark (underway : Underway context first begun done model) (id : DeclarationId) :
    Underway context first (insert id begun) done
      (model.updateDeclaration id fun declaration => { declaration with isAnalysed := true }) where
  history := underway.history.begun
  size := Model.size_updateDeclaration.trans underway.size
  -- A mark changes neither schemas nor kinds, by which bases are found.
  base? other := (Model.base?_updateDeclaration rfl rfl).trans (underway.base? other)
  marks other inside := by
    rw [Model.declaration_updateDeclaration]
    split
    · rename_i same
      simp [same.1]
    · -- The mark of another class is not touched.
      rename_i different
      have apart : other ≠ id := by
        rintro rfl
        rw [underway.size] at different
        exact different ⟨rfl, inside⟩
      rw [underway.marks other inside, Set.mem_insert_iff]
      simp [apart]

/-- All classes of a list are begun. -/
theorem underway_marks {fresh : List DeclarationId}
    (underway : Underway context first begun done model) :
    Ends (fresh.forM fun id =>
        updateDeclaration id fun declaration => { declaration with isAnalysed := true }) model
      (fun _ => Underway context first (begun ∪ { id | id ∈ fresh }) done)
      (Broken context first) := by
  induction fresh generalizing begun model with
  | nil =>
    show Underway _ _ _ _ _
    simpa using underway
  | cons id others ih =>
    rw [List.forM, ends_bind, ends_updateDeclaration]
    have marked := ih (underway.mark id)
    -- One class after the other is the whole list.
    have same : insert id begun ∪ { other | other ∈ others } =
        begun ∪ { other | other ∈ id :: others } := by
      ext other
      simp only [Set.mem_union, Set.mem_insert_iff, Set.mem_ofPred_eq, List.mem_cons]
      tauto
    rw [same] at marked
    exact marked

/-- A class is analysed in its turn. -/
theorem Underway.analyse (underway : Underway context first begun done model)
    (inside : id.index < first.declarations.size) (turn : InTurn context first done model id) :
    Ends (analyseDeclaration context id) model
      (fun _ => Underway context first begun (id :: done)) (Broken context first) := by
  -- The analysis of one class leaves the bases and the marks of all others as they were.
  have enduring : Enduring context model.declarations.size (SamePart footing model) :=
    enduring_samePart fun _ _ _ _ _ _ _ _ => rfl
  have kept := enduring.analyseDeclaration (underway.size.symm ▸ inside) model ⟨rfl, fun _ => rfl⟩
  unfold Closes at kept
  -- A failure breaks the turn of this class, and a success ends it.
  unfold Ends
  cases ran : analyseDeclaration context id model with
  | error fault last => exact ⟨done, model, id, fault, underway.history, turn, ran⟩
  | ok result last =>
    rw [ran] at kept
    have same : SamePart footing model last := kept
    refine ⟨underway.history.analysed turn ran, same.size.trans underway.size,
      fun other => (base?_of_samePart same).trans (underway.base? other), fun other inside => ?_⟩
    have marked : (last.declaration other).isAnalysed = (model.declaration other).isAnalysed :=
      congrArg (·.2.2) (same.same other)
    rw [marked]
    exact underway.marks other inside

/-- Classes in order are analysed from the last to the first. -/
theorem underway_analyses {fresh : List DeclarationId}
    (underway : Underway context first begun done model)
    (ordered : first.InOrder context.tree (finished first done) fresh) :
    Ends (fresh.reverse.forM (analyseDeclaration context)) model
      (fun _ => Underway context first begun (fresh ++ done)) (Broken context first) := by
  -- The last of the list comes first, so the induction follows the list from its end.
  induction fresh with
  | nil => exact underway
  | cons id others ih =>
    obtain ⟨ordered, fresh, apart, inside, behind⟩ := ordered
    rw [List.reverse_cons, List.forM_eq_forM, List.forM_append, ends_bind]
    refine (ih ordered).mono fun _ middle underway => ?_
    show Ends (do analyseDeclaration context id; pure ()) _ _ _
    rw [ends_bind]
    refine underway.analyse inside ⟨fun member => ?_, fun base extends' => ?_⟩
    · -- The class is none of the later ones of the list, and it was not finished before.
      rcases List.mem_append.mp member with member | member
      · exact apart member
      · exact fresh (.inl member)
    · -- Its base was finished before or is one of those just analysed.
      rcases behind base ((underway.base? id).symm.trans extends') with earlier | listed
      · exact earlier.imp_left (List.mem_append_right others)
      · exact .inl (List.mem_append_left done listed)

/-- A class is analysed with all its bases that are left. -/
theorem underway_resolveMembers
    (underway : Underway context first (finished first done) done model)
    (grounded : first.Grounded context.tree) (inside : id.index < first.declarations.size) :
    Ends (resolveMembers context id) model
      (fun _ last => ∃ more, id ∈ finished first (more ++ done) ∧
        Underway context first (finished first (more ++ done)) (more ++ done) last)
      (Broken context first) := by
  rw [resolveMembers, ends_bind, ends_get]
  generalize listed : (id :: model.allBases context.tree id).takeWhile
    (fun id => !(model.declaration id).isAnalysed) = fresh
  -- Bases are found as in the first model, so the chains are the same.
  have chain (n : Nat) (id : DeclarationId) :
      model.bases context.tree n id = first.bases context.tree n id := by
    induction n generalizing id with
    | zero => rfl
    | succ n ih => simp only [Model.bases, underway.base?, ih]
  have ordered : first.InOrder context.tree (finished first done) fresh := by
    rw [← listed, Model.allBases, chain, underway.size]
    exact grounded.inOrder underway.marks inside (Nat.le_refl _) (grounded.ends inside)
  have all : finished first done ∪ { id | id ∈ fresh } = finished first (fresh ++ done) := by
    ext other
    simp only [finished, Set.mem_union, Set.mem_ofPred_eq, List.mem_append]
    tauto
  rw [ends_bind]
  -- All of the list are begun at first, and analysed then.
  refine (underway_marks underway).mono fun _ middle underway' => ?_
  refine (underway_analyses underway' ordered).mono fun _ last underway' => ?_
  refine ⟨fresh, ?_, all ▸ underway'⟩
  -- The class itself was finished before, or comes first of those that are left.
  by_cases before : (model.declaration id).isAnalysed = true
  · rcases (underway.marks id inside).mp before with member | marked
    · exact .inl (List.mem_append_right fresh member)
    · exact .inr marked
  · refine .inl (List.mem_append_left done ?_)
    rw [← listed, List.takeWhile_cons, if_pos (by simpa using before)]
    exact List.mem_cons_self

/-- All classes are analysed, each of them in its turn. -/
theorem history_resolveMembers (grounded : model.Grounded context.tree) :
    Ends (model.ids.forM (resolveMembers context)) model
      (fun _ last => ∃ done, History context model done last ∧
        ∀ id ∈ model.ids, id ∈ finished model done)
      (Broken context model) := by
  let kept (left : List DeclarationId) (state : Model) : Prop :=
    left ⊆ model.ids ∧ ∃ done,
      Underway context model (finished model done) done state ∧
        ∀ id ∈ model.ids, id ∈ left ∨ id ∈ finished model done
  -- At the start all classes are left, and nothing has been analysed.
  have start : kept model.ids model := by
    refine ⟨List.Subset.refl _, [], ⟨.start, rfl, fun _ => rfl, fun id _ => ?_⟩, fun id => .inl⟩
    simp [finished]
  refine (Ends.forM_rest kept start fun id left state held => ?_).mono fun _ last held => ?_
  · obtain ⟨within, done, underway, all⟩ := held
    have inside := Model.mem_ids.mp (within List.mem_cons_self)
    refine (underway_resolveMembers underway grounded inside).mono fun _ last grown => ?_
    obtain ⟨more, now, underway⟩ := grown
    refine ⟨fun _ member => within (List.mem_cons_of_mem _ member), more ++ done, underway,
      fun other listed => ?_⟩
    -- Each class was left and is the one that was analysed, or it is still left, or was finished.
    rcases all other listed with waiting | earlier
    · rcases List.mem_cons.mp waiting with rfl | waiting
      · exact .inr now
      · exact .inl waiting
    · exact .inr (earlier.imp_left (List.mem_append_right more))
  · -- At the end none is left, so that each class is finished.
    obtain ⟨-, done, underway, all⟩ := held
    exact ⟨done, underway.history, fun id listed => (all id listed).resolve_left List.not_mem_nil⟩

/-- Without a circle of bases nothing but the lack of a name stops a resolution. -/
theorem lacksName_of_resolve {fault : Fault} {last : Model}
    (none : model.circularBase? context.tree = none)
    (stopped : resolve context model = .error fault last) : LacksName fault := by
  -- Any part of a declaration will do here, because only the fault counts.
  have lasting : Lasting context model.declarations.size (SamePart Declaration.schema model) :=
    lasting_samePart (fun _ _ _ _ _ _ _ _ => rfl) fun _ _ _ => rfl
  rw [resolve_of_grounded none] at stopped
  exact ((lasting.resolveAll (fun _ => Model.mem_ids.mp) model ⟨rfl, fun _ => rfl⟩).of_error stopped).2

/-- Circles of bases are refused, each by its first class, and before anything is touched; without one
the bases of every class come to an end, and a class is compared with its base only when the analysis
of that has completed. -/
theorem circular_or_inTurn {context : Context} {model : Model} :
    ((∃ name last, resolve context model = .error (.circularBase name) last) ↔
      ∃ id, Relation.TransGen (model.Extends context.tree) id id) ∧
    (∀ name last, resolve context model = .error (.circularBase name) last →
      last = model ∧ ∃ id, model.LeadsCircle context.tree id ∧
        name = (model.declaration id).qualifiedName) ∧
    ((∀ id, ¬Relation.TransGen (model.Extends context.tree) id id) →
      resolve context model = (do
        model.ids.forM (resolveMembers context)
        model.ids.forM (resolveVariants context)) model ∧
      (∀ id ∈ model.ids, model.Descent context.tree id (model.allBases context.tree id)) ∧
      Ends (model.ids.forM (resolveMembers context)) model
        (fun _ last => ∃ done, History context model done last ∧
          ∀ id ∈ model.ids, id ∈ finished model done)
        (Broken context model)) := by
  -- Circles are looked for before anything else is done, and nothing after that reports one.
  cases found : model.circularBase? context.tree with
  | some first =>
    -- A class that leads a circle is the reason for the refusal, and it lies in the circle.
    have refused := resolve_of_circularBase? found
    have leads : model.LeadsCircle context.tree first :=
      Model.leadsCircle_of_leads (List.find?_some found)
    refine ⟨⟨fun _ => ⟨first, leads.around⟩, fun _ => ⟨_, _, refused⟩⟩, fun name last stopped => ?_,
      fun none => absurd leads.around (none first)⟩
    rw [refused] at stopped
    cases stopped
    exact ⟨rfl, first, leads, rfl⟩
  | none =>
    -- Without a circle none is reported, and the members are resolved in turn.
    have grounded := Model.grounded_of_circularBase? found
    have never (name : String) (last : Model)
        (stopped : resolve context model = .error (.circularBase name) last) : False :=
      lacksName_of_resolve found stopped
    refine ⟨⟨fun ⟨name, last, stopped⟩ => (never name last stopped).elim,
      fun ⟨id, around⟩ => absurd around grounded.not_transGen⟩,
      fun name last stopped => (never name last stopped).elim, fun _ => ?_⟩
    exact ⟨resolve_of_grounded found,
      fun id listed => grounded.descent (Model.mem_ids.mp listed), history_resolveMembers grounded⟩

end Modelling

end SchemaClasses
