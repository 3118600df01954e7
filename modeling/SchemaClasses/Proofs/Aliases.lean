import Mathlib.Data.Fintype.Card
import SchemaClasses.Model

/-! The declaration for a schema is the first one on the chain of references that starts there,
however long the chain is and wherever it may enter a circle. -/

namespace SchemaClasses

/-- The schema that so many references in a row lead to, each of which is all that its schema
states. -/
def SchemaTree.alias? (tree : SchemaTree) (schema : SchemaId) : Nat → Option SchemaId
  | 0 => some schema
  | n + 1 => (tree.alias? schema n).bind tree.pureReference?

namespace SchemaTree

variable {tree : SchemaTree} {schema : SchemaId}

/-- A chain that starts one reference later. -/
theorem alias?_succ (n : Nat) :
    tree.alias? schema (n + 1) = (tree.pureReference? schema).bind (tree.alias? · n) := by
  induction n with
  | zero => simp [alias?]
  | succ n ih =>
    rw [alias?, ih, Option.bind_assoc]
    rfl

/-- A chain that comes to the same schema twice goes on alike from there. -/
theorem alias?_add_congr {i j : Nat} (same : tree.alias? schema i = tree.alias? schema j) (n : Nat) :
    tree.alias? schema (i + n) = tree.alias? schema (j + n) := by
  induction n with
  | zero => exact same
  | succ n ih =>
    rw [← Nat.add_assoc, ← Nat.add_assoc, alias?, alias?, ih]

/-- A chain that gets somewhere gets everywhere before. -/
theorem isSome_alias?_of_le {m n : Nat} (before : m ≤ n) (reached : (tree.alias? schema n).isSome) :
    (tree.alias? schema m).isSome := by
  induction n with
  | zero => rwa [Nat.le_zero.mp before]
  | succ n ih =>
    rcases Nat.le_succ_iff.mp before with before | rfl
    · refine ih before ?_
      rw [alias?] at reached
      -- A chain is followed through each schema before, so an earlier stop would end it.
      exact Option.isSome_of_isSome_bind reached
    · exact reached

/-- A schema that is a reference is one of the tree. -/
theorem lt_of_pureReference? {target : SchemaId} (leads : tree.pureReference? schema = some target) :
    schema.index < tree.schemas.size := by
  by_contra outside
  -- Behind the last schema there is nothing but boolean ones.
  have missing : tree.schema schema = default := by
    simp [SchemaTree.schema, Array.getElem?_eq_none (Nat.le_of_not_lt outside)]
  rw [pureReference?, missing] at leads
  cases leads

end SchemaTree

namespace Model

variable {model : Model} {tree : SchemaTree} {schema : SchemaId} {id : DeclarationId}

/-- The declaration for the schema that so many references in a row lead to. -/
def declaredAfter? (model : Model) (tree : SchemaTree) (schema : SchemaId) (n : Nat) :
    Option DeclarationId :=
  (tree.alias? schema n).bind model.declared?

/-- Whether a declaration is for a schema on the chain and none is for an earlier one. -/
def DeclaredFirst (model : Model) (tree : SchemaTree) (schema : SchemaId) (n : Nat)
    (id : DeclarationId) : Prop :=
  model.declaredAfter? tree schema n = some id ∧
    ∀ m < n, model.declaredAfter? tree schema m = none

/-- The declaration after one more reference is the one that the next schema finds. -/
theorem declaredAfter?_succ (n : Nat) :
    model.declaredAfter? tree schema (n + 1) =
      (tree.pureReference? schema).bind (model.declaredAfter? tree · n) := by
  unfold declaredAfter?
  rw [SchemaTree.alias?_succ, Option.bind_assoc]

/-- A search of so many steps finds the first declaration that is no further away. -/
theorem declarationAlong?_eq_some {steps : Nat} :
    model.declarationAlong? tree steps schema = some id ↔
      ∃ n ≤ steps, model.DeclaredFirst tree schema n id := by
  have here (schema : SchemaId) : model.declaredAfter? tree schema 0 = model.declared? schema := rfl
  -- The search takes one reference after the other, so the induction is on the steps.
  induction steps generalizing schema with
  -- Without a step only the schema itself can have a declaration.
  | zero =>
    constructor
    · intro found
      exact ⟨0, Nat.le_refl 0, found, fun m before => absurd before (Nat.not_lt_zero m)⟩
    · rintro ⟨n, none, found, -⟩
      obtain rfl : n = 0 := Nat.le_zero.mp none
      exact found
  | succ steps ih =>
    rw [declarationAlong?]
    cases declared : model.declared? schema with
    | some held =>
      constructor
      · intro found
        refine ⟨0, Nat.zero_le _, ?_, fun m before => absurd before (Nat.not_lt_zero m)⟩
        rw [here, declared]
        exact found
      · rintro ⟨n, -, found, unheard⟩
        -- A declaration for the schema itself comes before all others.
        cases n with
        | zero => rwa [here, declared] at found
        | succ n =>
          have earlier := unheard 0 (Nat.succ_pos n)
          rw [here, declared] at earlier
          cases earlier
    | none =>
      cases leads : tree.pureReference? schema with
      -- Neither declared nor a reference: the chain ends here, and no step leads on.
      | none =>
        constructor
        · intro found
          cases found
        · rintro ⟨n, -, found, -⟩
          cases n with
          | zero => simp [here, declared] at found
          | succ n => simp [declaredAfter?_succ, leads] at found
      | some next =>
        -- Otherwise everything lies one step nearer to the schema that is referred to.
        have after (n : Nat) : model.declaredAfter? tree schema (n + 1) =
            model.declaredAfter? tree next n := by
          rw [declaredAfter?_succ, leads]
          rfl
        rw [Option.bind_some]
        refine Iff.trans ih ?_
        constructor
        · rintro ⟨n, near, found, unheard⟩
          refine ⟨n + 1, Nat.succ_le_succ near, (after n).trans found, fun m before => ?_⟩
          -- The schema itself has no declaration, so none is skipped in front of the first.
          cases m with
          | zero => exact declared
          | succ m => exact (after m).trans (unheard m (Nat.lt_of_succ_lt_succ before))
        · rintro ⟨n, near, found, unheard⟩
          cases n with
          | zero => simp [here, declared] at found
          | succ n =>
            refine ⟨n, Nat.le_of_succ_le_succ near, (after n).symm.trans found, fun m before => ?_⟩
            exact (after m).symm.trans (unheard (m + 1) (Nat.succ_lt_succ before))

/-- Before its first declaration a chain does not come to the same schema twice. -/
theorem DeclaredFirst.alias?_ne {n i j : Nat} (first : model.DeclaredFirst tree schema n id)
    (less : i < j) (before : j < n) : tree.alias? schema i ≠ tree.alias? schema j := by
  intro circle
  -- The chain would have met the declaration a circle earlier.
  have again := SchemaTree.alias?_add_congr circle (n - j)
  have last : j + (n - j) = n := by omega
  rw [last] at again
  have quiet := first.2 (i + (n - j)) (by omega)
  have found := first.1
  rw [declaredAfter?, again] at quiet
  rw [declaredAfter?, quiet] at found
  cases found

/-- The first declaration on a chain is no further away than there are schemas. -/
theorem DeclaredFirst.le_size {n : Nat} (first : model.DeclaredFirst tree schema n id) :
    n ≤ tree.schemas.size := by
  -- The chain reaches the declaration, so each earlier schema of it is a reference of the tree.
  have earlier : ∀ m < n, ∃ other, tree.alias? schema m = some other ∧
      other.index < tree.schemas.size := by
    intro m before
    have reached : (tree.alias? schema n).isSome := by
      cases last : tree.alias? schema n with
      | none => simp [DeclaredFirst, declaredAfter?, last] at first
      | some => rfl
    have onward := SchemaTree.isSome_alias?_of_le (Nat.succ_le_of_lt before) reached
    -- One step after a schema that still comes before the declaration there is another, so it
    -- refers to one.
    obtain ⟨target, leads⟩ := Option.isSome_iff_exists.mp onward
    obtain ⟨other, stands, leads⟩ := Option.bind_eq_some_iff.mp leads
    exact ⟨other, stands, SchemaTree.lt_of_pureReference? leads⟩
  choose! other stands inside using earlier
  -- No schema comes twice on the way, so the steps fit into the schemas of the tree.
  have distinct : Function.Injective fun i : Fin n =>
      (⟨(other i).index, inside i i.isLt⟩ : Fin tree.schemas.size) := by
    intro i j same
    have same : other i = other j := by
      cases left : other i
      cases right : other j
      simp_all
    have meet : tree.alias? schema i = tree.alias? schema j := by
      rw [stands i i.isLt, stands j j.isLt, same]
    -- Of two different positions one comes first, and the chain cannot be there twice.
    rcases Nat.lt_trichotomy i.val j.val with less | equal | more
    · exact absurd meet (first.alias?_ne less j.isLt)
    · exact Fin.ext equal
    · exact absurd meet.symm (first.alias?_ne more i.isLt)
  simpa using Fintype.card_le_of_injective _ distinct

/-- The declaration for a schema is the first one on its chain of references, and there is none if
no schema on the chain has one, whether the chain ends or runs in a circle. More steps find no
more. -/
theorem finds_declarationFor? (model : Model) (tree : SchemaTree) (schema : SchemaId) :
    (∀ id, model.declarationFor? tree schema = some id ↔
        ∃ n, model.DeclaredFirst tree schema n id) ∧
      (model.declarationFor? tree schema = none ↔
        ∀ n last, tree.alias? schema n = some last → model.declared? last = none) ∧
      ∀ more, model.declarationAlong? tree (tree.schemas.size + more) schema =
        model.declarationFor? tree schema := by
  -- A search as long as the tree, or longer, misses no first declaration.
  have found (more : Nat) (id : DeclarationId) :
      model.declarationAlong? tree (tree.schemas.size + more) schema = some id ↔
        ∃ n, model.DeclaredFirst tree schema n id := by
    rw [declarationAlong?_eq_some]
    constructor
    · rintro ⟨n, -, first⟩
      exact ⟨n, first⟩
    · rintro ⟨n, first⟩
      exact ⟨n, Nat.le_add_right_of_le first.le_size, first⟩
  refine ⟨found 0, ?_, fun more => ?_⟩
  · constructor
    · intro missing n last stands
      -- If any schema on the chain had a declaration, the first of these would have been found.
      by_contra declared
      have some' : ∃ n, model.declaredAfter? tree schema n ≠ none := by
        refine ⟨n, ?_⟩
        rwa [declaredAfter?, stands]
      classical
      obtain ⟨id, first⟩ := Option.ne_none_iff_exists'.mp (Nat.find_spec some')
      have known := (found 0 id).mpr ⟨_, first, fun m before => by
        simpa using Nat.find_min some' before⟩
      rw [declarationFor?] at missing
      rw [Nat.add_zero, missing] at known
      cases known
    · intro unheard
      cases known : model.declarationFor? tree schema with
      | none => rfl
      | some id =>
        -- A declaration that was found stands on the chain, where none is said to stand.
        obtain ⟨n, first, -⟩ := (found 0 id).mp known
        obtain ⟨last, stands, declared⟩ := Option.bind_eq_some_iff.mp first
        rw [unheard n last stands] at declared
        cases declared
  · refine Option.ext fun id => ?_
    exact (found more id).trans (found 0 id).symm

end Model

end SchemaClasses
