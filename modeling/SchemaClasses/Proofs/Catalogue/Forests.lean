import Mathlib.Data.List.Perm.Basic
import SchemaClasses.Proofs.Catalogue.Projection
import SchemaClasses.Proofs.Pointer
import SchemaClasses.Proofs.Resolution.Descents

/-! Nested classes form a forest at every point of a resolution: the way outwards from each of them ends,
no two have the same path, and the catalogue shows each of them exactly once. -/

namespace SchemaClasses

mutual

/-- A class with all classes nested in it, at any depth, each before those inside it. -/
def ClassEntry.preorder : ClassEntry → List ClassEntry
  | entry@{ nested, .. } => entry :: preorderAll nested

/-- Some classes with all classes nested in them. -/
def preorderAll : List ClassEntry → List ClassEntry
  | [] => []
  | entry :: rest => entry.preorder ++ preorderAll rest

end

/-- All classes of a list come one after the other. -/
theorem preorderAll_eq {entries : List ClassEntry} :
    preorderAll entries = entries.flatMap fun entry => entry :: preorderAll entry.nested := by
  induction entries with
  | nil => rfl
  | cons entry rest ih =>
    rw [preorderAll, List.flatMap_cons, ih]
    cases entry
    rfl

/-- Values that are told apart pairwise have different places in a list. -/
theorem index_eq_of_pairwise {α : Type} {related : α → α → Prop} {items : List α}
    (pairwise : items.Pairwise related) {index other : Nat} {a b : α} (there : items[index]? = some a)
    (there' : items[other]? = some b) (unrelated : ¬related a b) (unrelated' : ¬related b a) :
    index = other := by
  -- Whichever comes first, the pair would be related.
  obtain ⟨inside, rfl⟩ := List.getElem?_eq_some_iff.mp there
  obtain ⟨inside', rfl⟩ := List.getElem?_eq_some_iff.mp there'
  rw [List.pairwise_iff_getElem] at pairwise
  rcases Nat.lt_trichotomy index other with before | same | behind
  · exact absurd (pairwise _ _ _ _ before) unrelated
  · exact same
  · exact absurd (pairwise _ _ _ _ behind) unrelated'

namespace Declaration

variable {declaration : Declaration} {index other : Nat} {nested nested' : NestedClass}

/-- The names of the classes around a scope, with no limit to how many these are: whoever follows the
way outwards comes to the declaration itself. -/
inductive Encloses (declaration : Declaration) : Option Nat → List String → Prop where
  | outermost : Encloses declaration none []
  | within {index : Nat} {nested : NestedClass} {names : List String}
      (there : declaration.nested[index]? = some nested)
      (outer : Encloses declaration nested.parent names) :
      Encloses declaration (some index) (names ++ [nested.name])

/-- The way outwards from a class ends within as many steps as its number. -/
theorem Ascends.encloses (ascends : declaration.Ascends) {steps : Nat} (enough : index < steps)
    (inside : index < declaration.nested.size) :
    declaration.Encloses (some index) (Model.enclosingNames declaration steps (some index)) := by
  induction steps generalizing index with
  | zero => omega
  | succ steps ih =>
    have there := Array.getElem?_eq_getElem inside
    rw [Model.enclosingNames, there]
    refine .within there ?_
    cases outer : declaration.nested[index].parent with
    | none => cases steps <;> exact .outermost
    | some parent =>
      have earlier := ascends index _ there parent outer
      -- The class around comes earlier, so one step less is enough for it.
      exact ih (by omega) (by omega)

/-- Classes beside each other that share a name are the same one. -/
theorem Orderly.index_eq (orderly : declaration.Orderly) (there : declaration.nested[index]? = some nested)
    (there' : declaration.nested[other]? = some nested') (parent : nested.parent = nested'.parent)
    (name : nested.name = nested'.name) : index = other := by
  rw [← Array.getElem?_toList] at there there'
  exact index_eq_of_pairwise orderly.names there there' (fun apart => apart parent name)
    fun apart => apart parent.symm name.symm

end Declaration

/-- What stands before the last dot of a path and behind it. -/
theorem append_dot_inj {outer outer' name name' : String} (whole : '.' ∉ name.toList)
    (whole' : '.' ∉ name'.toList) (same : outer ++ "." ++ name = outer' ++ "." ++ name') :
    outer = outer' ∧ name = name' := by
  -- Read from its end, a path begins with its last name.
  have reversed := congrArg (fun path : String => path.toList.reverse) same
  simp only [String.toList_append, List.reverse_append] at reversed
  have dot : ".".toList.reverse = ['.'] := by decide
  rw [dot, List.singleton_append, List.singleton_append] at reversed
  obtain ⟨last, before⟩ := append_separator_inj (by simpa using whole) (by simpa using whole') reversed
  exact ⟨String.toList_injective (List.reverse_injective before),
    String.toList_injective (List.reverse_injective last)⟩

namespace Model

variable {model : Model} {owner : DeclarationId} {index other : Nat}

/-- A path is longer than the name of the declaration with which it begins. -/
theorem length_lt_classPath (ascends : (model.declaration owner).Ascends)
    (inside : index < (model.declaration owner).nested.size) :
    (model.classPath (.declaration owner)).length < (model.classPath (.nested owner index)).length := by
  induction index using Nat.strong_induction_on with
  | _ index ih =>
    have there := Array.getElem?_eq_getElem inside
    rw [classPath_nested ascends there, String.length_append, String.length_append]
    have dot : ".".length = 1 := rfl
    cases outer : (model.declaration owner).nested[index].parent with
    | none =>
      rw [Option.elim_none]
      omega
    | some parent =>
      have earlier := ascends index _ there parent outer
      -- One step further out the path is longer already, and a name and a dot are added.
      have longer := ih parent earlier (by omega)
      rw [Option.elim_some]
      omega

/-- Different classes of a declaration have different paths. -/
theorem classPath_inj (orderly : (model.declaration owner).Orderly)
    (inside : index < (model.declaration owner).nested.size)
    (inside' : other < (model.declaration owner).nested.size)
    (same : model.classPath (.nested owner index) = model.classPath (.nested owner other)) :
    index = other := by
  -- The classes around them come before, so the induction is on the number.
  induction index using Nat.strong_induction_on generalizing other with
  | _ index ih =>
    have there := Array.getElem?_eq_getElem inside
    have there' := Array.getElem?_eq_getElem inside'
    have whole {number : Nat} {nested : NestedClass}
        (held : (model.declaration owner).nested[number]? = some nested) : '.' ∉ nested.name.toList :=
      -- A name without dots can be cut off a path, as the dot before it is the last one.
      dot_notMem_of_isIdentifier (orderly.identifiers nested (Array.mem_of_getElem? held))
    rw [classPath_nested orderly.parent there, classPath_nested orderly.parent there'] at same
    obtain ⟨around, name⟩ := append_dot_inj (whole there) (whole there') same
    have longer {number : Nat} (before : number < (model.declaration owner).nested.size) :=
      length_lt_classPath orderly.parent before
    -- Classes in the same scope with the same name are one, so only their scopes have to be
    -- compared.
    refine orderly.index_eq there there' ?_ name
    cases outer : (model.declaration owner).nested[index].parent with
    | none =>
      cases outer' : (model.declaration owner).nested[other].parent with
      | none => rfl
      | some parent =>
        -- The path of a nested class is not that of the declaration.
        rw [outer, outer'] at around
        have earlier := orderly.parent other _ there' parent outer'
        have longer := longer (Nat.lt_trans earlier inside')
        rw [Option.elim_none, Option.elim_some] at around
        rw [around] at longer
        exact absurd longer (Nat.lt_irrefl _)
    | some parent =>
      have earlier := orderly.parent index _ there parent outer
      cases outer' : (model.declaration owner).nested[other].parent with
      -- The path of the class around the first one would be that of the declaration.
      | none =>
        rw [outer, outer', Option.elim_none, Option.elim_some] at around
        have longer := longer (Nat.lt_trans earlier inside)
        rw [around] at longer
        exact absurd longer (Nat.lt_irrefl _)
      | some parent' =>
        have earlier' := orderly.parent other _ there' parent' outer'
        -- Both lie in classes, whose paths are the same and which come earlier.
        rw [outer, outer', Option.elim_some, Option.elim_some] at around
        exact congrArg some (ih parent earlier (Nat.lt_trans earlier inside)
          (Nat.lt_trans earlier' inside') around)

end Model

namespace Declaration

variable {declaration : Declaration} {scope : Option Nat} {steps more : Nat}
variable {pair inner outer : NestedClass × Nat}

/-- The classes that lie directly in a scope, with their numbers. -/
def classesIn (declaration : Declaration) (scope : Option Nat) : List (NestedClass × Nat) :=
  declaration.nested.toList.zipIdx.filter fun (nested, _) => nested.parent == scope

/-- The classes in a scope and all that are nested in them, so many levels deep. -/
def classesWithin (declaration : Declaration) : Nat → Option Nat → List (NestedClass × Nat)
  | 0, _ => []
  | steps + 1, scope => (declaration.classesIn scope).flatMap fun pair =>
      pair :: classesWithin declaration steps (some pair.2)

/-- A class in a scope stands under its number, and says that it lies there. -/
theorem mem_classesIn :
    pair ∈ declaration.classesIn scope ↔
      declaration.nested[pair.2]? = some pair.1 ∧ pair.1.parent = scope := by
  simp [classesIn, List.mem_zipIdx_iff_getElem?]

/-- A class that lies directly in another one comes behind it. -/
theorem Ascends.lt_of_mem_classesIn (ascends : declaration.Ascends) {index : Nat}
    (direct : pair ∈ declaration.classesIn (some index)) : index < pair.2 := by
  obtain ⟨there, outer⟩ := mem_classesIn.mp direct
  exact ascends pair.2 pair.1 there index outer

/-- Whether a nested class lies directly in another one. -/
def LiesIn (declaration : Declaration) (index outer : Nat) : Prop :=
  ∃ nested, declaration.nested[index]? = some nested ∧ nested.parent = some outer

/-- A class lies directly in one other at most. -/
theorem liesIn_unique : Relator.RightUnique declaration.LiesIn := by
  rintro index a b ⟨nested, there, outer⟩ ⟨nested', there', outer'⟩
  rw [there] at there'
  cases there'
  exact Option.some_inj.mp (outer.symm.trans outer')

/-- Classes around another one come before it. -/
theorem Ascends.le_of_liesIn (ascends : declaration.Ascends) {a b : Nat}
    (lies : Relation.ReflTransGen declaration.LiesIn a b) : b ≤ a := by
  induction lies with
  | refl => exact Nat.le_refl a
  | tail _ lies ih =>
    obtain ⟨nested, there, outer⟩ := lies
    exact Nat.le_trans (Nat.le_of_lt (ascends _ nested there _ outer)) ih

/-- What lies within a class lies in it, directly or in classes between them. -/
theorem liesIn_of_mem_classesWithin {index : Nat}
    (member : pair ∈ declaration.classesWithin steps (some index)) :
    Relation.TransGen declaration.LiesIn pair.2 index := by
  induction steps generalizing index with
  | zero => exact absurd member List.not_mem_nil
  | succ steps ih =>
    obtain ⟨between, direct, member⟩ := List.mem_flatMap.mp member
    obtain ⟨there, outer⟩ := mem_classesIn.mp direct
    -- A class is met as one of the scope, or on the way down from one of these.
    rcases List.mem_cons.mp member with rfl | member
    · exact .single ⟨_, there, outer⟩
    · exact .tail (ih member) ⟨_, there, outer⟩

/-- Of two classes in one scope, neither lies in the other. -/
theorem Ascends.eq_of_beside (ascends : declaration.Ascends) (direct : inner ∈ declaration.classesIn scope)
    (direct' : outer ∈ declaration.classesIn scope)
    (lies : Relation.ReflTransGen declaration.LiesIn inner.2 outer.2) : inner = outer := by
  obtain ⟨there, beside⟩ := mem_classesIn.mp direct
  obtain ⟨there', beside'⟩ := mem_classesIn.mp direct'
  rcases Relation.ReflTransGen.cases_head lies with same | ⟨between, ⟨nested, held, around⟩, further⟩
  · rw [same, there'] at there
    exact Prod.ext (Option.some_inj.mp there).symm same
  · -- The class around the one would be around the other too, and lie in it.
    rw [held] at there
    cases there
    have earlier := ascends _ _ there' between (beside'.trans (beside.symm.trans around))
    exact absurd (ascends.le_of_liesIn further) (Nat.not_le.mpr earlier)

/-- Every class has its number only once. -/
theorem nodup_zipIdx {α : Type} (items : List α) : items.zipIdx.Nodup := by
  refine List.Nodup.of_map Prod.snd ?_
  rw [List.zipIdx_map_snd]
  exact List.nodup_range'

/-- No class is met twice on the way down. -/
theorem Ascends.nodup_classesWithin (ascends : declaration.Ascends) :
    (declaration.classesWithin steps scope).Nodup := by
  induction steps generalizing scope with
  | zero => exact List.nodup_nil
  | succ steps ih =>
    -- Whatever is met with a class is that class or lies in it.
    have around {pair other : NestedClass × Nat}
        (member : other ∈ pair :: declaration.classesWithin steps (some pair.2)) :
        Relation.ReflTransGen declaration.LiesIn other.2 pair.2 := by
      rcases List.mem_cons.mp member with rfl | member
      · exact .refl
      · exact (liesIn_of_mem_classesWithin member).to_reflTransGen
    have distinct : (declaration.classesIn scope).Nodup := (nodup_zipIdx _).filter _
    refine List.nodup_flatMap.mpr ⟨fun pair _ => List.nodup_cons.mpr ⟨fun member => ?_, ih⟩, ?_⟩
    · -- A class that is met below itself would lie in itself, against the order of the numbers.
      obtain ⟨outer, ⟨nested, there, within⟩, further⟩ :=
        Relation.TransGen.head'_iff.mp (liesIn_of_mem_classesWithin member)
      exact absurd (ascends.le_of_liesIn further) (Nat.not_le.mpr (ascends _ nested there _ within))
    · refine distinct.pairwise_of_forall_ne fun a direct b direct' different => ?_
      refine List.disjoint_left.mpr fun pair member member' => different ?_
      -- Of two classes around the same one, one lies in the other.
      rcases Relation.ReflTransGen.total_of_right_unique liesIn_unique (around member)
        (around member') with lies | lies
      · exact ascends.eq_of_beside direct direct' lies
      · exact (ascends.eq_of_beside direct' direct lies).symm

/-- Whatever is met on the way down lies directly in some scope. -/
theorem exists_classesIn (met : pair ∈ declaration.classesWithin steps scope) :
    ∃ around, pair ∈ declaration.classesIn around := by
  induction steps generalizing scope with
  | zero => exact absurd met List.not_mem_nil
  | succ steps ih =>
    obtain ⟨between, direct, member⟩ := List.mem_flatMap.mp met
    rcases List.mem_cons.mp member with rfl | member
    · exact ⟨scope, direct⟩
    · exact ih member

/-- One level deeper there are the classes that lie in those above. -/
theorem mem_classesWithin_succ (met : outer ∈ declaration.classesWithin steps scope)
    (direct : inner ∈ declaration.classesIn (some outer.2)) :
    inner ∈ declaration.classesWithin (steps + 1) scope := by
  induction steps generalizing scope with
  | zero => exact absurd met List.not_mem_nil
  | succ steps ih =>
    obtain ⟨between, direct', member⟩ := List.mem_flatMap.mp met
    refine List.mem_flatMap.mpr ⟨between, direct', List.mem_cons_of_mem _ ?_⟩
    -- The class from above is one of the scope itself, or it was met further down.
    rcases List.mem_cons.mp member with rfl | member
    · exact List.mem_flatMap.mpr ⟨inner, direct, List.mem_cons_self⟩
    · exact ih member

/-- More levels hold all classes of fewer ones. -/
theorem classesWithin_subset (fewer : steps ≤ more) :
    declaration.classesWithin steps scope ⊆ declaration.classesWithin more scope := by
  induction steps generalizing more scope with
  | zero => exact List.nil_subset _
  | succ steps ih =>
    obtain ⟨more, rfl⟩ : ∃ less, more = less + 1 := ⟨more - 1, by omega⟩
    intro pair member
    obtain ⟨between, direct, member⟩ := List.mem_flatMap.mp member
    refine List.mem_flatMap.mpr ⟨between, direct, ?_⟩
    -- The first level is the same, and below it one level less is compared.
    rcases List.mem_cons.mp member with rfl | member
    · exact List.mem_cons_self
    · exact List.mem_cons_of_mem _ (ih (by omega) member)

/-- Every class is met from the declaration on, and as many levels deep as its number says at most. -/
theorem Ascends.mem_classesWithin (ascends : declaration.Ascends) {index : Nat} {nested : NestedClass}
    (there : declaration.nested[index]? = some nested) :
    (nested, index) ∈ declaration.classesWithin (index + 1) none := by
  induction index using Nat.strong_induction_on generalizing nested with
  | _ index ih =>
    cases outer : nested.parent with
    | none =>
      exact List.mem_flatMap.mpr ⟨_, mem_classesIn.mpr ⟨there, outer⟩, List.mem_cons_self⟩
    | some parent =>
      -- The class around it is met one level higher, as its number is smaller.
      have earlier := ascends index nested there parent outer
      have inside := (Array.getElem?_eq_some_iff.mp there).1
      have around := ih parent earlier (Array.getElem?_eq_getElem (Nat.lt_trans earlier inside))
      exact classesWithin_subset (by omega)
        (mem_classesWithin_succ around (mem_classesIn.mpr ⟨there, outer⟩))

/-- From the declaration on, every nested class is met exactly once. -/
theorem Ascends.perm_classesWithin (ascends : declaration.Ascends) :
    (declaration.classesWithin (declaration.nested.size + 1) none).Perm
      declaration.nested.toList.zipIdx := by
  refine (List.perm_ext_iff_of_nodup ascends.nodup_classesWithin (nodup_zipIdx _)).mpr fun pair => ?_
  -- Both lists have no duplicates, so it is enough that they have the same members.
  rw [List.mem_zipIdx_iff_getElem?, Array.getElem?_toList]
  constructor
  · intro met
    obtain ⟨around, direct⟩ := exists_classesIn met
    exact (mem_classesIn.mp direct).1
  · intro there
    have inside := (Array.getElem?_eq_some_iff.mp there).1
    exact classesWithin_subset (by omega) (ascends.mem_classesWithin there)

/-- Whether there is a level for each class behind those of a scope. -/
def Enough (declaration : Declaration) (steps : Nat) (scope : Option Nat) : Prop :=
  ∀ pair ∈ declaration.classesIn scope, declaration.nested.size < steps + pair.2

/-- No level is enough only where there is no class, because numbers end with the size. -/
theorem Enough.eq_nil (enough : declaration.Enough 0 scope) : declaration.classesIn scope = [] := by
  refine List.eq_nil_iff_forall_not_mem.mpr fun pair direct => ?_
  have inside := (Array.getElem?_eq_some_iff.mp (mem_classesIn.mp direct).1).1
  have behind := enough pair direct
  omega

/-- One level fewer is enough in a class of the scope. -/
theorem Enough.below (enough : declaration.Enough (steps + 1) scope) (ascends : declaration.Ascends)
    (direct : pair ∈ declaration.classesIn scope) : declaration.Enough steps (some pair.2) := by
  intro inner direct'
  have behind := ascends.lt_of_mem_classesIn direct'
  have deep := enough pair direct
  omega

/-- A level for each class is enough in every class. -/
theorem Ascends.enough_size (ascends : declaration.Ascends) (index : Nat) :
    declaration.Enough declaration.nested.size (some index) := by
  intro inner direct
  have behind := ascends.lt_of_mem_classesIn direct
  omega

end Declaration

namespace Model

variable {model : Model} {language : Language} {declaration : Declaration} {scope : Option Nat}
variable {steps more : Nat}

/-- The catalogue entry of a nested class. -/
def nestedEntry (model : Model) (language : Language) (declaration : Declaration)
    (pair : NestedClass × Nat) : ClassEntry :=
  { name := pair.1.name
    kind := pair.1.kind
    description := (model.ledger.record pair.1.record).description
    body := model.bodyOf language pair.1.kind pair.1.record
    interfaces := pair.1.interfaces.map model.classPath
    nested := model.nestedWithin language declaration declaration.nested.size (some pair.2)
    isVariant := pair.1.isVariant }

/-- One level of the catalogue: the classes of a scope, each with the levels below it. -/
theorem nestedWithin_succ :
    model.nestedWithin language declaration (steps + 1) scope =
      (declaration.classesIn scope).map fun pair =>
        { model.nestedEntry language declaration pair with
          nested := model.nestedWithin language declaration steps (some pair.2) } := rfl

/-- Where there are no classes the catalogue shows none. -/
theorem nestedWithin_of_nil (none : declaration.classesIn scope = []) :
    model.nestedWithin language declaration steps scope = [] := by
  cases steps with
  | zero => rfl
  | succ steps => rw [nestedWithin_succ, none, List.map_nil]

/-- What the catalogue shows in a scope does not depend on the number of levels, as long as there are
enough. -/
theorem nestedWithin_eq (ascends : declaration.Ascends) (enough : declaration.Enough steps scope)
    (enough' : declaration.Enough more scope) :
    model.nestedWithin language declaration steps scope =
      model.nestedWithin language declaration more scope := by
  induction steps generalizing more scope with
  | zero =>
    have none := enough.eq_nil
    rw [nestedWithin_of_nil none, nestedWithin_of_nil none]
  | succ steps ih =>
    cases more with
    | zero =>
      have none := enough'.eq_nil
      rw [nestedWithin_of_nil none, nestedWithin_of_nil none]
    | succ more =>
      rw [nestedWithin_succ, nestedWithin_succ]
      refine List.map_congr_left fun pair direct => ?_
      rw [ih (enough.below ascends direct) (enough'.below ascends direct)]

/-- The classes of a scope are shown by their entries. -/
theorem nestedWithin_eq_map (ascends : declaration.Ascends)
    (enough : declaration.Enough (steps + 1) scope) :
    model.nestedWithin language declaration (steps + 1) scope =
      (declaration.classesIn scope).map (model.nestedEntry language declaration) := by
  rw [nestedWithin_succ]
  refine List.map_congr_left fun pair direct => ?_
  rw [nestedWithin_eq ascends (enough.below ascends direct) (ascends.enough_size pair.2)]
  rfl

/-- The catalogue shows the classes of a scope and all that are nested in them in the order in which they
are met. -/
theorem preorderAll_nestedWithin (ascends : declaration.Ascends)
    (enough : declaration.Enough steps scope) :
    preorderAll (model.nestedWithin language declaration steps scope) =
      (declaration.classesWithin steps scope).map (model.nestedEntry language declaration) := by
  induction steps generalizing scope with
  | zero => rfl
  | succ steps ih =>
    rw [nestedWithin_eq_map ascends enough, preorderAll_eq, Declaration.classesWithin, List.map_flatMap,
      List.flatMap_map]
    refine List.flatMap_congr fun pair direct => ?_
    -- The levels below an entry are those that are left, as both are enough.
    have below : (model.nestedEntry language declaration pair).nested =
        model.nestedWithin language declaration steps (some pair.2) :=
      nestedWithin_eq ascends (ascends.enough_size pair.2) (enough.below ascends direct)
    rw [below, ih (enough.below ascends direct), List.map_cons]

/-- Whether the catalogue shows the nested classes of a declaration as the tree that they form: in each
class those that lie directly in it, and every class exactly once. -/
structure Projects (model : Model) (language : Language) (declaration : Declaration) : Prop where
  outermost : (model.entryOf language declaration).nested =
    (declaration.classesIn none).map (model.nestedEntry language declaration)
  within : ∀ pair ∈ declaration.nested.toList.zipIdx,
    (model.nestedEntry language declaration pair).nested =
      (declaration.classesIn (some pair.2)).map (model.nestedEntry language declaration)
  once : (preorderAll (model.entryOf language declaration).nested).Perm
    (declaration.nested.toList.zipIdx.map (model.nestedEntry language declaration))

/-- The catalogue shows classes that lie in earlier ones as the tree that they form. -/
theorem projects_of_ascends (ascends : declaration.Ascends) : model.Projects language declaration where
  outermost := nestedWithin_eq_map ascends fun _ _ => by omega
  within pair member := by
    have inside : pair.2 < declaration.nested.size := by
      rw [List.mem_zipIdx_iff_getElem?, Array.getElem?_toList] at member
      exact (Array.getElem?_eq_some_iff.mp member).1
    -- The steps down are counted from the number of classes, of which there is one at least.
    obtain ⟨steps, size⟩ : ∃ steps, declaration.nested.size = steps + 1 :=
      ⟨declaration.nested.size - 1, by omega⟩
    have enough := ascends.enough_size pair.2
    rw [size] at enough
    rw [nestedEntry, size]
    exact nestedWithin_eq_map ascends enough
  once := by
    have shown : preorderAll (model.entryOf language declaration).nested =
        (declaration.classesWithin (declaration.nested.size + 1) none).map
          (model.nestedEntry language declaration) :=
      preorderAll_nestedWithin ascends fun _ _ => by omega
    rw [shown]
    exact ascends.perm_classesWithin.map _

/-- Whether the nested classes of all declarations form a forest without repetitions, with all that
follows: the way outwards from each of them ends, their paths differ, and every catalogue shows each of
them exactly once. -/
structure Forested (model : Model) : Prop where
  orderly : ∀ id, (model.declaration id).Orderly
  encloses : ∀ owner index, index < (model.declaration owner).nested.size →
    ∃ names, (model.declaration owner).Encloses (some index) names ∧
      model.classPath (.nested owner index) =
        joinText "." ((model.declaration owner).qualifiedName :: names)
  paths : ∀ owner index other, index < (model.declaration owner).nested.size →
    other < (model.declaration owner).nested.size →
    model.classPath (.nested owner index) = model.classPath (.nested owner other) → index = other
  projects : ∀ language owner, model.Projects language (model.declaration owner)

/-- All of this follows from the order of the nested classes. -/
theorem forested_of_orderly (orderly : ∀ id, (model.declaration id).Orderly) : model.Forested where
  orderly := orderly
  encloses owner _ inside :=
    ⟨_, Declaration.Ascends.encloses (orderly owner).parent inside inside, rfl⟩
  paths owner _ _ := classPath_inj (orderly owner)
  projects _ owner := projects_of_ascends (orderly owner).parent

end Model

namespace Modelling

variable {context : Context}

/-- What is resolved already is not resolved again. -/
theorem resolve_of_resolved {model : Model} (none : model.circularBase? context.tree = none)
    (resolved : ∀ id ∈ model.ids,
      (model.declaration id).isAnalysed ∧ (model.declaration id).hasVariants) :
    resolve context model = .ok () model := by
  have members : model.ids.forM (resolveMembers context) model = .ok () model := by
    refine forM_eq_ok fun id member => ?_
    simp only [resolveMembers, get_bind, List.takeWhile_cons, (resolved id member).1]
    rfl
  have variants : model.ids.forM (resolveVariants context) model = .ok () model := by
    refine forM_eq_ok fun id member => ?_
    simp only [resolveVariants, declaration, bind_assoc, get_bind, pure_bind, (resolved id member).2]
    rfl
  rw [resolve_of_grounded none]
  simp only [Bind.bind, EStateM.bind, members, variants]

/-- At every point of the resolution of documents, and however it ends, the nested classes of each
declaration form a forest without repetitions, which every catalogue shows as it is: however the
resolution is divided into writes, this holds before and after each of them. A resolution that has
succeeded changes nothing when it is tried again. -/
theorem forested_resolve {context : Context} {roots : List RootSchema} :
    Ends (roots.forM (declareRoot context)) {}
      (fun _ model =>
        Relation.ReflTransGen (Write context) model (lastState (resolve context) model) ∧
        (∀ point, Relation.ReflTransGen (Write context) model point →
          Relation.ReflTransGen (Write context) point (lastState (resolve context) model) →
          point.Forested) ∧
        ∀ last, resolve context model = .ok () last → resolve context last = .ok () last)
      (fun _ => True) := by
  refine declared_roots.mono fun _ model declared => ?_
  have tracks := @tracksTo_resolve context model (model.ledger.size + model.declarations.size + 1)
    (pure ()) (by omega) (by omega) declared.arranged
  have trail : Trail context model model (lastState (resolve context) model) :=
    (tracks.2.imp (fun _ _ found => found.1) fun _ _ left => left).lastState
  have orderly := (Trail.arranged trail declared.arranged).orderly
  refine ⟨Relation.ReflTransGen.mono (fun _ _ write => write.1) _ _ trail, fun point _ further =>
    Model.forested_of_orderly (Write.orderly_before further orderly), fun last succeeded => ?_⟩
  -- A resolution that succeeds is not refused, and it leaves everything resolved.
  obtain ⟨trail, resolved⟩ := tracks.2.of_ok succeeded
  have arranged := Trail.arranged trail declared.arranged
  refine resolve_of_resolved ?_ fun id member => resolved id ?_
  · rw [arranged.circularBase?_eq]
    cases found : model.circularBase? context.tree with
    | none => rfl
    | some id =>
      rw [resolve_of_circularBase? found] at succeeded
      cases succeeded
  · rw [Model.mem_ids] at member ⊢
    exact arranged.size ▸ member

end Modelling

end SchemaClasses
