import SchemaClasses.Proofs.Model

/-! The names of classes: each class joins a scope, which is a package or a class around it, under the first
form of its name that no class of the scope has. So the names of a scope stay different, and a class is
refused only when all forms of its name are taken. -/

namespace SchemaClasses

/-- Where the names of classes are different from each other: in a package, and side by side in a declaration
or in one of the classes nested in it. -/
inductive NameScope where
  | package (package : Option String)
  | beside (owner : DeclarationId) (parent : Option Nat)

/-- The names of the classes in a scope, in the order in which they were made. -/
def Model.namesIn (model : Model) : NameScope → List String
  | .package package =>
    (model.declarations.toList.filter fun other => other.package == package).map (·.name)
  | .beside owner parent =>
    ((model.declaration owner).nested.toList.filter fun nested => nested.parent == parent).map (·.name)

/-- How a run ends that makes a class in a scope: the class has joined the others under the first form of its
name that none of them has, or all forms are taken and the fault says so. -/
inductive JoinsScope {α : Type} (scope : NameScope) (candidate : String) (start : Model) :
    EStateM.Result Fault Model α → Prop
  | joined {result : α} {last : Model} {n : Nat} (allowed : n < suffixLimit)
    (names : last.namesIn scope = start.namesIn scope ++ [nameForm candidate n])
    (free : nameForm candidate n ∉ start.namesIn scope)
    (first : ∀ m < n, nameForm candidate m ∈ start.namesIn scope) :
    JoinsScope scope candidate start (.ok result last)
  | exhausted (full : ∀ n < suffixLimit, nameForm candidate n ∈ start.namesIn scope) :
    JoinsScope scope candidate start (.error (.namesExhausted candidate) start)

namespace JoinsScope

variable {α : Type} {scope : NameScope} {candidate : String} {start last : Model} {result : α}

/-- Names that are different stay different. -/
theorem nodup (joins : JoinsScope scope candidate start (.ok result last)) (apart : (start.namesIn scope).Nodup) :
    (last.namesIn scope).Nodup := by
  -- The new name is free among the old ones, wherever it stands in the list.
  cases joins with
  | joined allowed names free first =>
    rw [names]
    exact (List.perm_append_singleton _ _).nodup_iff.mpr (List.nodup_cons.mpr ⟨free, apart⟩)

/-- No class is refused while a form of its name is free. -/
theorem exists_ok {outcome : EStateM.Result Fault Model α} (joins : JoinsScope scope candidate start outcome)
    {n : Nat} (allowed : n < suffixLimit) (free : nameForm candidate n ∉ start.namesIn scope) :
    ∃ result last, outcome = .ok result last := by
  -- If all forms were taken, so would be the free one.
  cases joins with
  | joined => exact ⟨_, _, rfl⟩
  | exhausted full => exact absurd (full n allowed) free

/-- What is returned in the end plays no part. -/
theorem returning {β : Type} {step : Modelling α} {change : α → β}
    (joins : JoinsScope scope candidate start (step start)) :
    JoinsScope scope candidate start ((do return change (← step) : Modelling β) start) := by
  -- The outcome of the step decides, whatever is made of its result.
  simp only [bind, EStateM.bind]
  generalize step start = outcome at joins
  cases joins with
  | joined allowed names free first => exact .joined allowed names free first
  | exhausted full => exact .exhausted full

end JoinsScope

namespace Modelling

variable {context : Context} {start : Model} {scope : NameScope} {candidate : String} {α : Type}

/-- A class joins a scope if it takes a name that is allocated against the names of the scope. -/
theorem joins_allocateName {taken : String → Bool} {next : String → Modelling α}
    (known : ∀ name, taken name = true ↔ name ∈ start.namesIn scope)
    (adds : ∀ name, ∃ result last, next name start = .ok result last ∧
      last.namesIn scope = start.namesIn scope ++ [name]) :
    JoinsScope scope candidate start ((allocateName candidate taken >>= next) start) := by
  -- The predicate and the list tell the same names, so what is free for one is not in the other.
  have unknown (name : String) : taken name = false ↔ name ∉ start.namesIn scope := by
    rw [← known, Bool.not_eq_true]
  simp only [bind, EStateM.bind, allocateName]
  -- Allocation takes the first free form, or fails if there is none.
  cases found : allocate candidate taken with
  | ok name =>
    obtain ⟨n, allowed, rfl, free, first⟩ := allocate_eq_ok_iff.mp found
    obtain ⟨result, last, ran, names⟩ := adds (nameForm candidate n)
    simp only [pure, EStateM.pure, ran]
    exact .joined allowed names ((unknown _).mp free) fun m before => (known _).mp (first m before)
  | error fault =>
    obtain ⟨rfl, full⟩ := allocate_eq_error_iff.mp found
    exact .exhausted fun n allowed => (known _).mp (full n allowed)

/-- A class is declared in its package under the first form of its name that is free there. -/
theorem joins_declare {name uri : String} {package : Option String} {schema : SchemaId} {record : RecordId}
    {kind : ClassKind} :
    JoinsScope (.package package) name start (declare name package uri schema record kind start) := by
  -- What is asked about a name is whether a class of the same package has it.
  refine joins_allocateName (fun name => ?_) fun name => ⟨_, _, rfl, ?_⟩
  · simp only [Model.namesIn, ← Array.any_toList, List.any_eq_true, List.mem_map, List.mem_filter,
      Bool.and_eq_true, beq_iff_eq, and_assoc]
  · simp [Model.namesIn]

/-- A class is nested beside others under the first form of its name that is free there. -/
theorem joins_pushNested {owner : DeclarationId} {parent : Option Nat} {nested : String → NestedClass}
    (inside : owner.index < start.declarations.size) (named : ∀ name, (nested name).name = name)
    (beside : ∀ name, (nested name).parent = parent) :
    JoinsScope (.beside owner parent) candidate start (pushNested owner candidate nested start) := by
  -- What is asked about a name is whether a class with the same parent has it.
  refine joins_allocateName (fun name => ?_) fun name => ⟨_, _, rfl, ?_⟩
  · simp only [Model.namesIn, Declaration.isNestedNameTaken, beside, ← Array.any_toList, List.any_eq_true,
      List.mem_map, List.mem_filter, Bool.and_eq_true, beq_iff_eq, and_assoc]
  · simp [Model.namesIn, Model.declaration_updateDeclaration, inside, named, beside]

/-- A record is read without a change. -/
theorem record_bind {id : RecordId} {next : Record → Modelling α} :
    (record id >>= next) start = next (start.ledger.record id) start := rfl

/-- A declaration is read without a change. -/
theorem declaration_bind {id : DeclarationId} {next : Declaration → Modelling α} :
    (declaration id >>= next) start = next (start.declaration id) start := rfl

/-- The class for a record is there already, and nothing changes, or it is nested beside the others. -/
theorem joins_nestedClass {site : Site} {id : RecordId} {kind : ClassKind} {role : Role}
    (inside : site.owner.index < start.declarations.size) :
    (∃ index, nestedClass context site id kind role start = .ok (index, false) start) ∨
      JoinsScope (.beside site.owner site.scope) (nestedName context (start.ledger.record id) role) start
        (nestedClass context site id kind role start) := by
  -- A class for the same schema or target is used again, and otherwise a new one is nested.
  cases found : (start.declaration site.owner).findNested? (start.ledger.record id).schema
      (start.ledger.record id).target with
  | some index =>
    have same : nestedClass context site id kind role start = .ok (index, false) start := by
      simp only [nestedClass, record_bind, declaration_bind, found]
      rfl
    exact .inl ⟨index, same⟩
  | none =>
    -- The name is the only thing about the new class that is yet to be found.
    let nested (name : String) : NestedClass :=
      { name, parent := site.scope, kind, record := id, origin := (start.ledger.record id).schema
        target := (start.ledger.record id).target }
    have pushed : nestedClass context site id kind role start =
        (do return (← pushNested site.owner (nestedName context (start.ledger.record id) role) nested, true) :
          Modelling (Nat × Bool)) start := by
      simp only [nestedClass, record_bind, declaration_bind, found, nested]
    have joins : JoinsScope (.beside site.owner site.scope) (nestedName context (start.ledger.record id) role) start
        (pushNested site.owner _ nested start) := joins_pushNested inside (fun _ => rfl) fun _ => rfl
    rw [pushed]
    exact .inr joins.returning

/-- A variant is nested beside the others in its scope. -/
theorem joins_pushVariant {owner : DeclarationId} {parent : Option Nat} {record branch : RecordId}
    {implements : ClassRef} (inside : owner.index < start.declarations.size) :
    JoinsScope (.beside owner parent)
      (((start.ledger.record branch).title.map context.settings.naming.className).getD "Variant") start
      (pushVariant context owner parent record branch implements start) := by
  -- A variant is a nested class that only lacks its name.
  let nested (name : String) : NestedClass :=
    { name, parent, kind := .concrete, record, origin := (start.ledger.record branch).schema, target := none
      interfaces := [implements], isVariant := true }
  have pushed : pushVariant context owner parent record branch implements start =
      pushNested owner (((start.ledger.record branch).title.map context.settings.naming.className).getD "Variant")
        nested start := rfl
  rw [pushed]
  exact joins_pushNested inside (fun _ => rfl) fun _ => rfl

end Modelling

end SchemaClasses
