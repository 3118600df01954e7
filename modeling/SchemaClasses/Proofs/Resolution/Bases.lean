import Mathlib.Data.Fintype.Pigeonhole
import Mathlib.Data.Nat.Find
import Mathlib.Logic.Relation
import SchemaClasses.Proofs.Model
import SchemaClasses.Resolution

/-! Chains of bases: without a circle every chain ends, and a class comes after all its bases. -/

namespace SchemaClasses

namespace Model

variable {model : Model} {tree : SchemaTree} {id other base : DeclarationId}

/-- A declaration is listed when its number is in use. -/
theorem mem_ids : id ∈ model.ids ↔ id.index < model.declarations.size := by
  simp only [ids, List.mem_map, List.mem_range]
  constructor
  · rintro ⟨index, inside, rfl⟩
    exact inside
  · exact fun inside => ⟨id.index, inside, rfl⟩

/-- A declaration for a schema is among the declarations. -/
theorem inside_of_declarationAlong? {steps : Nat} {schema : SchemaId}
    (found : model.declarationAlong? tree steps schema = some id) :
    id.index < model.declarations.size := by
  have declared {schema : SchemaId} (found : model.declared? schema = some id) :
      id.index < model.declarations.size :=
    mem_ids.mp (List.mem_reverse.mp (List.mem_of_find?_eq_some found))
  -- Every declaration that is found along the way is found directly in the end.
  induction steps generalizing schema with
  | zero => exact declared found
  | succ steps ih =>
    rw [declarationAlong?] at found
    split at found
    · rename_i held
      rw [found] at held
      exact declared held
    · obtain ⟨next, -, found⟩ := Option.bind_eq_some_iff.mp found
      exact ih found

/-- A base class is declared. -/
theorem inside_of_base? (extends' : model.base? tree id = some base) :
    base.index < model.declarations.size := by
  unfold base? at extends'
  simp only [Option.bind_eq_bind, Option.bind_eq_some_iff] at extends'
  obtain ⟨-, -, branches, -, first, -, -, -, found⟩ := extends'
  exact inside_of_declarationAlong? found

/-- Which declaration stands for a schema is decided by the schemas of the declarations. -/
theorem declarationFor?_congr {grown : Model} {schema : SchemaId}
    (size : grown.declarations.size = model.declarations.size)
    (same : ∀ id, (grown.declaration id).schema = (model.declaration id).schema) :
    grown.declarationFor? tree schema = model.declarationFor? tree schema := by
  -- The search is over the same identifiers and compares the same schemas.
  have ids : grown.ids = model.ids := by simp only [Model.ids, size]
  have declared (schema : SchemaId) : grown.declared? schema = model.declared? schema := by
    simp only [declared?, ids, same]
  have along (steps : Nat) (schema : SchemaId) :
      grown.declarationAlong? tree steps schema = model.declarationAlong? tree steps schema := by
    induction steps generalizing schema with
    | zero => exact declared schema
    | succ steps ih =>
      have next : grown.declarationAlong? tree steps = model.declarationAlong? tree steps :=
        funext ih
      rw [declarationAlong?, declarationAlong?, declared, next]
  exact along _ schema

/-- Which class a class extends is decided by the schemas and kinds of the declarations. -/
theorem base?_congr {grown : Model} (size : grown.declarations.size = model.declarations.size)
    (schema : ∀ id, (grown.declaration id).schema = (model.declaration id).schema)
    (kind : ∀ id, (grown.declaration id).kind = (model.declaration id).kind) :
    grown.base? tree id = model.base? tree id := by
  have stands : grown.declarationFor? tree = model.declarationFor? tree :=
    funext fun _ => declarationFor?_congr size schema
  simp only [base?, schema, kind, stands]

/-- The chain of bases is decided likewise. -/
theorem allBases_congr {grown : Model} (size : grown.declarations.size = model.declarations.size)
    (schema : ∀ id, (grown.declaration id).schema = (model.declaration id).schema)
    (kind : ∀ id, (grown.declaration id).kind = (model.declaration id).kind) :
    grown.allBases tree id = model.allBases tree id := by
  -- A base is found for the same schemas and kinds, hence also the base of the base.
  have chain (steps : Nat) (id : DeclarationId) :
      grown.bases tree steps id = model.bases tree steps id := by
    induction steps generalizing id with
    | zero => rfl
    | succ steps ih => simp only [bases, base?_congr size schema kind, ih]
  unfold allBases
  rw [size, chain]

/-- The base that so many steps lead to. -/
def baseAfter (model : Model) (tree : SchemaTree) : Nat → DeclarationId → Option DeclarationId
  | 0, id => some id
  | steps + 1, id => (model.base? tree id).bind (baseAfter model tree steps)

/-- Steps to a base and steps from there are steps in all. -/
theorem baseAfter_add {m n : Nat} :
    model.baseAfter tree (m + n) id =
      (model.baseAfter tree m id).bind (model.baseAfter tree n) := by
  induction m generalizing id with
  | zero => simp [baseAfter]
  | succ m ih =>
    rw [Nat.succ_add, baseAfter, baseAfter, Option.bind_assoc]
    -- A chain that ends before the first part is over has no second part.
    cases model.base? tree id with
    | none => rfl
    | some base => exact ih

/-- Every class on the way to a base is declared. -/
theorem inside_of_baseAfter {n : Nat} (inside : id.index < model.declarations.size)
    (reached : model.baseAfter tree n id = some other) : other.index < model.declarations.size := by
  induction n generalizing id with
  | zero =>
    cases reached
    exact inside
  | succ n ih =>
    obtain ⟨base, extends', reached⟩ := Option.bind_eq_some_iff.mp reached
    exact ih (inside_of_base? extends') reached

/-- The bases met are those that some steps lead to. -/
theorem mem_bases {n : Nat} :
    other ∈ model.bases tree n id ↔
      ∃ k, 1 ≤ k ∧ k ≤ n ∧ model.baseAfter tree k id = some other := by
  induction n generalizing id with
  | zero =>
    -- No number of steps lies between one and zero.
    simp only [bases, List.not_mem_nil, false_iff]
    rintro ⟨k, _, _, _⟩
    omega
  | succ n ih =>
    rw [bases]
    cases extends' : model.base? tree id with
    | none =>
      simp only [List.not_mem_nil, false_iff]
      -- Without a base no step leads anywhere.
      rintro ⟨_ | k, atLeast, _, reached⟩
      · omega
      · simp [baseAfter, extends'] at reached
    | some base =>
      simp only [List.mem_cons, ih]
      constructor
      · rintro (rfl | ⟨k, _, _, reached⟩)
        · exact ⟨1, by omega, by omega, by simp [baseAfter, extends']⟩
        · exact ⟨k + 1, by omega, by omega, by simp [baseAfter, extends', reached]⟩
      · -- One step leads to the base itself, any further ones go on from there.
        rintro ⟨_ | _ | k, atLeast, atMost, reached⟩
        · omega
        · left
          simpa [baseAfter, extends'] using reached.symm
        · right
          refine ⟨k + 1, by omega, by omega, ?_⟩
          simpa [baseAfter, extends'] using reached

/-- What is met before a class is met has not led through it. -/
theorem of_mem_takeWhile_bases {n : Nat}
    (member : other ∈ (model.bases tree n id).takeWhile (· ≠ base)) :
    ∃ j, 1 ≤ j ∧ model.baseAfter tree j id = some other ∧
      ∀ i, 1 ≤ i → i ≤ j → model.baseAfter tree i id ≠ some base := by
  induction n generalizing id with
  | zero => simp [bases] at member
  | succ n ih =>
    rw [bases] at member
    cases extends' : model.base? tree id with
    | none => simp [extends'] at member
    | some next =>
      have first : model.baseAfter tree 1 id = some next := by simp [baseAfter, extends']
      simp only [extends', List.takeWhile_cons] at member
      -- The first base is kept only if it is not the class to stop at.
      split at member
      · rename_i different
        have different : next ≠ base := by simpa using different
        rcases List.mem_cons.mp member with rfl | member
        · refine ⟨1, Nat.le_refl 1, first, fun i atLeast atMost => ?_⟩
          have : i = 1 := by omega
          subst this
          simpa [first] using different
        · obtain ⟨j, atLeast, reached, missed⟩ := ih member
          refine ⟨j + 1, by omega, by simp [baseAfter, extends', reached], ?_⟩
          -- The first step misses the class since it was met here, the others do from there on.
          rintro (_ | _ | i) atLeast' atMost'
          · omega
          · simpa [first] using different
          · have missed' := missed (i + 1) (by omega) (by omega)
            rw [baseAfter, extends']
            exact missed'
      · cases member

/-- A class that its own bases lead back to within as many steps as there are classes. -/
def InCircle (model : Model) (tree : SchemaTree) (id : DeclarationId) : Prop :=
  ∃ k, 1 ≤ k ∧ k ≤ model.declarations.size ∧ model.baseAfter tree k id = some id

/-- Where bases run in a circle, one of the classes in it leads the circle. -/
theorem exists_leadsCircle (inside : id.index < model.declarations.size)
    (circle : model.InCircle tree id) :
    ∃ first, first.index < model.declarations.size ∧ model.leadsCircle tree first = true := by
  classical
  -- Of all classes in circles take the first one, and its first way back.
  have found : ∃ index, index < model.declarations.size ∧ model.InCircle tree ⟨index⟩ :=
    ⟨id.index, inside, circle⟩
  -- The index is minimal, so no class below it lies in a circle.
  obtain ⟨inside', circle'⟩ := Nat.find_spec found
  have least {index : Nat} (below : index < Nat.find found) :=
    Nat.find_min found below
  generalize Nat.find found = index at inside' circle' least
  refine ⟨⟨index⟩, inside', ?_⟩
  obtain ⟨k, atLeast, atMost, back⟩ := circle'
  simp only [leadsCircle, Bool.and_eq_true, decide_eq_true_eq, List.all_eq_true]
  refine ⟨mem_bases.mpr ⟨k, atLeast, atMost, back⟩, fun other member => ?_⟩
  obtain ⟨j, atLeast', reached, missed⟩ := of_mem_takeWhile_bases member
  -- The list stops where the way comes back to the class, hence all that is met lies before.
  have sooner : j < k := by
    by_contra later
    exact missed k atLeast (by omega) back
  -- A class on the way back lies in the same circle.
  have split : model.baseAfter tree (j + (k - j)) ⟨index⟩ = some ⟨index⟩ := by
    rw [Nat.add_sub_cancel' (Nat.le_of_lt sooner)]
    exact back
  rw [baseAfter_add, reached] at split
  have around : model.baseAfter tree k other = some other := by
    have same : k = k - j + j := by omega
    rw [same, baseAfter_add]
    simp only [Option.bind_some] at split
    rw [split]
    exact reached
  have inside'' := inside_of_baseAfter inside' reached
  -- It cannot have a smaller index, and it is another class since the way misses the first one.
  have notBelow : ¬other.index < index :=
    fun below => least below ⟨inside'', k, atLeast, atMost, around⟩
  have different : other.index ≠ index := by
    rintro rfl
    exact missed j atLeast' (Nat.le_refl j) reached
  show index < other.index
  omega

/-- Whether no class extends itself through its bases. -/
def Grounded (model : Model) (tree : SchemaTree) : Prop :=
  ∀ id : DeclarationId, id.index < model.declarations.size → ¬model.InCircle tree id

/-- Bases that run in a circle are found. -/
theorem grounded_of_circularBase? (none : model.circularBase? tree = none) :
    model.Grounded tree := by
  intro id inside circle
  obtain ⟨first, inside', leads⟩ := exists_leadsCircle inside circle
  have listed : first ∈ model.ids.reverse := List.mem_reverse.mpr (mem_ids.mpr inside')
  exact absurd leads (List.find?_eq_none.mp none first listed)

/-- Without a circle a chain of bases ends within as many steps as there are classes. -/
theorem Grounded.ends (grounded : model.Grounded tree)
    (inside : id.index < model.declarations.size) :
    model.baseAfter tree (model.declarations.size + 1) id = none := by
  by_contra endless
  -- Otherwise every number of steps leads to a class, and two of them lead to the same one.
  have reaches (k : Fin (model.declarations.size + 1)) :
      ∃ other : DeclarationId, other.index < model.declarations.size ∧
        model.baseAfter tree k id = some other := by
    cases reached : model.baseAfter tree k id with
    -- A chain that ends sooner would also have ended after all these steps.
    | none =>
      have whole : model.declarations.size + 1 = k + (model.declarations.size + 1 - k) := by omega
      rw [whole, baseAfter_add, reached] at endless
      exact absurd rfl endless
    | some other => exact ⟨other, inside_of_baseAfter inside reached, rfl⟩
  choose met inside' reached using reaches
  -- There are more numbers of steps than classes.
  obtain ⟨a, b, different, same⟩ := Fintype.exists_ne_map_eq_of_card_lt
    (fun k => (⟨(met k).index, inside' k⟩ : Fin model.declarations.size)) (by simp)
  have again : met a = met b := DeclarationId.ext (congrArg Fin.val same)
  -- The steps between two visits of one class are a circle.
  have circle {a b : Fin (model.declarations.size + 1)} (sooner : a < b) (again : met a = met b) :
      model.InCircle tree (met a) := by
    refine ⟨b - a, by omega, by omega, ?_⟩
    have back := reached b
    have whole : (b : Nat) = a + (b - a) := by omega
    rw [whole, baseAfter_add, reached a] at back
    rw [again]
    rw [again] at back
    exact back
  -- One of the two numbers of steps is the smaller one.
  rcases lt_or_gt_of_ne different with sooner | later
  · exact grounded _ (inside' a) (circle sooner again)
  · exact grounded _ (inside' b) (circle later again.symm)

/-- A list of classes that may be analysed from its end on: each of them once, and behind its base
unless that has been analysed. -/
def InOrder (model : Model) (tree : SchemaTree) (done : Set DeclarationId) :
    List DeclarationId → Prop
  | [] => True
  | id :: rest =>
    InOrder model tree done rest ∧ id ∉ done ∧ id ∉ rest ∧ id.index < model.declarations.size ∧
      ∀ base, model.base? tree id = some base → base ∈ done ∨ base ∈ rest

/-- The bases of a class that are still to be analysed are listed in order. -/
theorem Grounded.inOrder (grounded : model.Grounded tree) {done : Set DeclarationId} {n : Nat}
    {isDone : DeclarationId → Bool}
    (marks : ∀ id : DeclarationId, id.index < model.declarations.size →
      (isDone id = true ↔ id ∈ done))
    (inside : id.index < model.declarations.size) (atMost : n ≤ model.declarations.size)
    (ends : model.baseAfter tree (n + 1) id = none) :
    model.InOrder tree done ((id :: model.bases tree n id).takeWhile fun id => !isDone id) := by
  -- The list follows the bases, so the induction is on the number of steps that are left.
  induction n generalizing id with
  | zero =>
    -- No step is left, so the class is the last of its chain.
    have last : model.base? tree id = none := by
      cases extends' : model.base? tree id with
      | none => rfl
      | some base => simp [baseAfter, extends'] at ends
    simp only [bases, List.takeWhile_cons, List.takeWhile_nil]
    split
    · rename_i fresh
      have fresh : id ∉ done := fun member => by simp [(marks id inside).mpr member] at fresh
      exact ⟨trivial, fresh, List.not_mem_nil, inside, fun base extends' => by simp [last] at extends'⟩
    · trivial
  | succ n ih =>
    rw [List.takeWhile_cons]
    split
    · rename_i fresh
      have fresh : id ∉ done := fun member => by simp [(marks id inside).mpr member] at fresh
      rw [bases]
      cases extends' : model.base? tree id with
      | none => exact ⟨trivial, fresh, List.not_mem_nil, inside, fun base held => by simp [extends'] at held⟩
      | some base =>
        have inside' := inside_of_base? extends'
        have ends' : model.baseAfter tree (n + 1) base = none := by
          rw [baseAfter, extends'] at ends
          exact ends
        have rest := ih inside' (by omega) ends'
        refine ⟨rest, fresh, fun member => ?_, inside, fun other held => ?_⟩
        · -- A class among its own bases would extend itself.
          have met : id ∈ model.bases tree (n + 1) id := by
            rw [bases, extends']
            exact List.takeWhile_subset _ member
          obtain ⟨k, atLeast, within, around⟩ := mem_bases.mp met
          exact grounded id inside ⟨k, atLeast, by omega, around⟩
        · -- The base is done already or it is the next one in the list.
          rw [extends'] at held
          cases held
          by_cases member : base ∈ done
          · exact .inl member
          · right
            have waiting : (!isDone base) = true := by
              simpa using fun held => member ((marks base inside').mp held)
            rw [List.takeWhile_cons, if_pos waiting]
            exact List.mem_cons_self
    · trivial

end Model

/-! Circles of bases: a class that extends itself over one or more bases is found, by the first class
of its circle, and without one the way over the bases ends at a class that has none. -/

namespace Model

variable {model : Model} {tree : SchemaTree} {id other base : DeclarationId}

/-- Whether a class extends another one directly. -/
def Extends (model : Model) (tree : SchemaTree) (id base : DeclarationId) : Prop :=
  model.base? tree id = some base

/-- A class extends another one over some bases if as many steps lead there. -/
theorem transGen_extends_iff :
    Relation.TransGen (model.Extends tree) id other ↔
      ∃ k, 1 ≤ k ∧ model.baseAfter tree k id = some other := by
  constructor
  · intro reaches
    -- A path is extended at its end, which is one step after all others.
    induction reaches with
    | single extends' => exact ⟨1, Nat.le_refl 1, by simp [baseAfter, show _ = _ from extends']⟩
    | tail _ extends' ih =>
      obtain ⟨k, _, reached⟩ := ih
      refine ⟨k + 1, by omega, ?_⟩
      rw [baseAfter_add, reached]
      simp [baseAfter, show _ = _ from extends']
  · -- In the other direction the steps are taken from the front.
    rintro ⟨k, atLeast, reached⟩
    induction k generalizing id with
    | zero => omega
    | succ k ih =>
      obtain ⟨base, extends', reached⟩ := Option.bind_eq_some_iff.mp reached
      cases k with
      | zero =>
        cases reached
        exact .single extends'
      | succ k => exact .head extends' (ih (by omega) reached)

/-- Whether a class is the first one, by its number, of those that it extends and that extend it. -/
structure LeadsCircle (model : Model) (tree : SchemaTree) (id : DeclarationId) : Prop where
  around : Relation.TransGen (model.Extends tree) id id
  first : ∀ other, Relation.TransGen (model.Extends tree) id other →
    Relation.TransGen (model.Extends tree) other id → id.index ≤ other.index

/-- A class that other classes extend is declared. -/
theorem inside_of_transGen (reaches : Relation.TransGen (model.Extends tree) id base) :
    base.index < model.declarations.size := by
  induction reaches with
  | single extends' => exact inside_of_base? extends'
  | tail _ extends' => exact inside_of_base? extends'

/-- Several times around a circle is back again. -/
theorem baseAfter_mul {k : Nat} (back : model.baseAfter tree k id = some id) (times : Nat) :
    model.baseAfter tree (times * k) id = some id := by
  induction times with
  | zero => simp [baseAfter]
  | succ times ih =>
    rw [Nat.succ_mul, baseAfter_add, ih]
    exact back

/-- What some steps lead to is met before a class that none of these steps leads to. -/
theorem mem_takeWhile_bases {n j : Nat} (atLeast : 1 ≤ j) (atMost : j ≤ n)
    (reached : model.baseAfter tree j id = some other)
    (missed : ∀ i, 1 ≤ i → i ≤ j → model.baseAfter tree i id ≠ some base) :
    other ∈ (model.bases tree n id).takeWhile (· ≠ base) := by
  induction n generalizing id j with
  | zero => omega
  | succ n ih =>
    obtain ⟨j, rfl⟩ : ∃ i, j = i + 1 := ⟨j - 1, by omega⟩
    obtain ⟨next, extends', reached⟩ := Option.bind_eq_some_iff.mp reached
    -- The first class that is met is not the one that ends the list.
    have different : next ≠ base := by
      rintro rfl
      exact missed 1 (Nat.le_refl 1) (by omega) (by simp [baseAfter, extends'])
    rw [bases, extends']
    simp only [List.takeWhile_cons, decide_eq_true different, if_true]
    -- The class sought is this one or comes after some more steps.
    cases j with
    | zero =>
      cases reached
      exact List.mem_cons_self
    | succ j =>
      refine List.mem_cons_of_mem _ (ih (by omega) (by omega) reached fun i atLeast' atMost' held => ?_)
      refine missed (i + 1) (by omega) (by omega) ?_
      rw [baseAfter, extends']
      exact held

/-- A class that leads back to itself before any class with a smaller number leads its circle. -/
theorem leadsCircle_of_leads (leads : model.leadsCircle tree id = true) :
    model.LeadsCircle tree id := by
  classical
  simp only [leadsCircle, Bool.and_eq_true, decide_eq_true_eq, List.all_eq_true] at leads
  obtain ⟨member, smaller⟩ := leads
  have found : ∃ k, 1 ≤ k ∧ k ≤ model.declarations.size ∧ model.baseAfter tree k id = some id :=
    mem_bases.mp member
  -- Of all ways around take the shortest one.
  obtain ⟨atLeast, atMost, back⟩ := Nat.find_spec found
  have shortest {i : Nat} (sooner : i < Nat.find found) := Nat.find_min found sooner
  generalize Nat.find found = k at atLeast atMost back shortest
  refine ⟨transGen_extends_iff.mpr ⟨k, atLeast, back⟩, fun other reaches _ => ?_⟩
  obtain ⟨j, -, reached⟩ := transGen_extends_iff.mp reaches
  -- Whole rounds may be left out of the way to another class of the circle.
  have rounds : j = j / k * k + j % k := by
    rw [Nat.mul_comm]
    exact (Nat.div_add_mod j k).symm
  -- After whole rounds the way is back at the start, so only the remainder counts.
  rw [rounds, baseAfter_add, baseAfter_mul back] at reached
  have remainder : j % k < k := Nat.mod_lt j (by omega)
  -- A remainder of zero leads to the class itself, any other to a class met before the round is
  -- over.
  by_cases none : j % k = 0
  · rw [none] at reached
    cases reached
    exact Nat.le_refl _
  · have met : other ∈ (model.allBases tree id).takeWhile (· ≠ id) := by
      refine mem_takeWhile_bases (by omega) (by omega) reached fun i atLeast' atMost' held => ?_
      exact shortest (by omega) ⟨atLeast', by omega, held⟩
    have smaller := smaller other met
    omega

/-- Without a circle no class extends itself, over however many bases. -/
theorem Grounded.not_transGen (grounded : model.Grounded tree) :
    ¬Relation.TransGen (model.Extends tree) id id := by
  intro around
  have inside := inside_of_transGen around
  obtain ⟨k, atLeast, back⟩ := transGen_extends_iff.mp around
  -- Enough rounds would be more steps than there can be without a circle.
  have size : model.declarations.size + 1 ≤ (model.declarations.size + 1) * k :=
    Nat.le_mul_of_pos_right _ (by omega)
  have far := baseAfter_mul back (model.declarations.size + 1)
  have whole : (model.declarations.size + 1) * k =
      -- Split off the steps that are one too many; they lead nowhere, so neither do all of them.
      model.declarations.size + 1 + ((model.declarations.size + 1) * k -
        (model.declarations.size + 1)) := by omega
  rw [whole, baseAfter_add, grounded.ends inside] at far
  cases far

/-- The whole way from a class over its bases, to one that has none. -/
inductive Descent (model : Model) (tree : SchemaTree) :
    DeclarationId → List DeclarationId → Prop where
  | last {id : DeclarationId} (none : model.base? tree id = none) : Descent model tree id []
  | base {id base : DeclarationId} {rest : List DeclarationId}
      (extends' : model.Extends tree id base) (further : Descent model tree base rest) :
      Descent model tree id (base :: rest)

/-- A way that ends within some steps is met as a whole. -/
theorem descent_bases {n : Nat} (ends : model.baseAfter tree (n + 1) id = none) :
    model.Descent tree id (model.bases tree n id) := by
  induction n generalizing id with
  | zero =>
    refine .last ?_
    -- A chain that ends after one step has no base to begin with.
    cases extends' : model.base? tree id with
    | none => rfl
    | some base => simp [baseAfter, extends'] at ends
  | succ n ih =>
    rw [bases]
    cases extends' : model.base? tree id with
    | none => exact .last extends'
    | some base =>
      rw [baseAfter, extends'] at ends
      exact .base extends' (ih ends)

/-- Without a circle the bases of a class are the whole way to one that has none. -/
theorem Grounded.descent (grounded : model.Grounded tree)
    (inside : id.index < model.declarations.size) :
    model.Descent tree id (model.allBases tree id) := descent_bases (grounded.ends inside)

end Model

end SchemaClasses
