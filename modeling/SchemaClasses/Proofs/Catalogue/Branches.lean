import SchemaClasses.Proofs.Catalogue.Closure

/-! Every branch of a class that may have branches gets a class of its own. A declaration has one such
class for each schema, so branches that classes share are resolved for one of these only. -/

namespace SchemaClasses

namespace Model

/-- Whether a class has a variant for a branch: one nested in the same declaration, for the schema of the
branch, that implements this class. -/
def HasVariant (model : Model) (owner : DeclarationId) (ref : ClassRef) (branch : RecordId) : Prop :=
  ∃ nested ∈ (model.declaration owner).nested.toList, nested.isVariant = true ∧
    nested.origin = (model.ledger.record branch).schema ∧ ref ∈ nested.interfaces

instance (model : Model) (owner : DeclarationId) (ref : ClassRef) (branch : RecordId) :
    Decidable (model.HasVariant owner ref branch) :=
  List.decidableBEx _ _

/-- How a branch of a class is resolved: by a variant of this class, or by what was nested for the same
schema before. -/
inductive Resolves (model : Model) (owner : DeclarationId) (ref : ClassRef) (branch : RecordId) :
    Prop where
  | own (variant : model.HasVariant owner ref branch)
  | shared {other : ClassRef} {kind : ClassKind} {container like : RecordId} (differs : other ≠ ref)
      (hosts : model.Hosts owner other kind container)
      (held : like ∈ (model.ledger.record container).oneOf)
      (same : (model.ledger.record like).schema = (model.ledger.record branch).schema)
      (variant : model.HasVariant owner other branch)
  | plain {nested : NestedClass} (member : nested ∈ (model.declaration owner).nested)
      (plain : nested.isVariant = false)
      (made : nested.origin = (model.ledger.record branch).schema)

variable {model : Model} {owner : DeclarationId} {ref : ClassRef} {branch container : RecordId}

/-- The branches of a concrete class have nested classes once they are resolved. -/
theorem Served.serves (served : model.Served owner) (hosts : model.Hosts owner ref .concrete container)
    (held : branch ∈ (model.ledger.record container).oneOf) : model.Serves owner branch := by
  generalize concrete : ClassKind.concrete = kind at hosts
  cases hosts with
  -- The class of the declaration itself.
  | declared => exact served.declared concrete.symm branch held
  -- A nested class, which is not a variant.
  | nested there plain => exact served.nested _ _ there concrete.symm plain branch held

/-- The class nested for the schema of a branch tells how that branch is resolved. -/
theorem Serves.resolves (serves : model.Serves owner branch)
    (variants : ∀ nested ∈ (model.declaration owner).nested, nested.isVariant = true →
      ∃ ref, model.VariantOf owner nested ref) (ref : ClassRef) :
    model.Resolves owner ref branch := by
  obtain ⟨-, nested, member, made⟩ := serves
  cases marked : nested.isVariant with
  | false => exact .plain member marked made
  | true =>
    -- A variant implements one class, which is the one that it was made for.
    obtain ⟨other, implements, kind, container, hosts, like, held, -, origin⟩ :=
      variants nested member marked
    have variant : model.HasVariant owner other branch :=
      ⟨nested, member.val, marked, made, implements ▸ List.mem_cons_self⟩
    -- Whether that class is the one asked about is all that is left open.
    by_cases same : other = ref
    · exact .own (same ▸ variant)
    · exact .shared same hosts held (origin.trans made) variant

/-- No two classes are nested in a declaration for the same schema. -/
theorem Links.eq_of_origin_eq (links : model.Links (model.declaration owner)) {a b : NestedClass}
    (first : a ∈ (model.declaration owner).nested) (second : b ∈ (model.declaration owner).nested)
    (same : a.origin = b.origin) : a = b := by
  -- Links are told apart by places in the declaration, and one place holds one class.
  obtain ⟨index, there⟩ := Array.mem_iff_getElem?.mp first
  obtain ⟨index', there'⟩ := Array.mem_iff_getElem?.mp second
  rw [links.distinct index index' a b there there' same] at there
  exact Option.some.inj (there.symm.trans there')

/-- A model in which the branches of all classes that may have some are resolved. -/
structure Branched (model : Model) : Prop where
  /-- Every branch of a concrete class that is not itself a variant is resolved. -/
  resolves : ∀ owner : DeclarationId, owner.index < model.declarations.size → ∀ ref container,
    model.Hosts owner ref .concrete container →
      ∀ branch ∈ (model.ledger.record container).oneOf, model.Resolves owner ref branch
  /-- A variant stands for a branch of the class that it implements, which is not itself one. -/
  variants : ∀ owner : DeclarationId, ∀ nested ∈ (model.declaration owner).nested,
    nested.isVariant = true → ∃ ref, model.VariantOf owner nested ref
  /-- A declaration nests one class for a schema. -/
  single : ∀ owner : DeclarationId, ∀ a ∈ (model.declaration owner).nested,
    ∀ b ∈ (model.declaration owner).nested, a.origin = b.origin → a = b

end Model

namespace Modelling

open Model

variable {context : Context} {first last : Model} {homes : DeclarationId → Set RecordId}

/-- Once no class is left, the branches of all of them are resolved. -/
theorem Estates.branched (estates : Estates context first homes [] last) : last.Branched where
  resolves owner inside ref _ hosts _ held :=
    have served := estates.served owner (estates.declarations ▸ inside) List.not_mem_nil
    (served.serves hosts held).resolves (estates.sane.variants owner) ref
  variants := estates.sane.variants
  single owner _ member _ member' same := (estates.sane.links owner).eq_of_origin_eq member member' same

/-- Every branch of a class of a run that is not itself a variant has a class nested in the same
declaration: a variant that implements that class, unless one was nested for the same schema before. -/
theorem branched_build {roots : List RootSchema} :
    Ends (build context roots) {} (fun _ last => last.Branched) (fun _ => True) :=
  estates_build.imp (fun _ _ ⟨_, _, estates⟩ => estates.branched) fun _ _ => trivial

end Modelling

/-- Whether the branches of all concrete nested classes of a sort, the variants or the others, have
variants that implement them. -/
def Model.NestedHaveVariants (model : Model) (sort : Bool) : Prop :=
  ∀ owner : DeclarationId, owner.index < model.declarations.size → ∀ index nested,
    (model.declaration owner).nested[index]? = some nested → nested.kind = .concrete →
      nested.isVariant = sort → ∀ branch ∈ (model.ledger.record nested.record).oneOf,
        model.HasVariant owner (.nested owner index) branch

/-- Two documents: two nested classes that share their alternatives, and an alternative with one of its
own. -/
def sharedBranchSources : List SourceDocument :=
  let sharing := Json.object [("type", .string "object"),
    ("allOf", .array [.object [("$ref", .string "#/definitions/d")]])]
  let branch := fun title more => Json.object
    ([("title", .string title), ("type", .string "object")] ++ more)
  [{ uri := "t"
     content := .object [("type", .string "object"),
       ("properties", .object [("a", sharing), ("b", sharing)]),
       ("definitions", .object [("d", .object [("oneOf", .array [branch "One" []])])])] },
   { uri := "u"
     content := .object [("oneOf", .array [branch "One" [("oneOf", .array [branch "Two" []])]])] }]

/-- Neither nested classes that share their branches nor variants need have variants of their own. -/
theorem not_nestedHaveVariants_sharedBranchSources :
    ∃ roots tree last, (readRoots sharedBranchSources).run {} = .ok roots tree ∧
      (Modelling.build { tree } roots).run {} = .ok () last ∧
        ∀ sort, ¬ last.NestedHaveVariants sort := by
  -- The run is computed, and so is the branch that lacks a variant.
  -- The check is decided for the model itself, so that no field of it has to be computed twice.
  have missing : (built? sharedBranchSources).any fun last => decide
      (∀ sort, ∃ owner ∈ last.ids, ∃ index ∈ List.range (last.declaration owner).nested.size,
        ∃ nested ∈ (last.declaration owner).nested[index]?.toList, nested.kind = .concrete ∧
          nested.isVariant = sort ∧ ∃ branch ∈ (last.ledger.record nested.record).oneOf,
            ¬ last.HasVariant owner (.nested owner index) branch) := by
    decide +kernel
  obtain ⟨last, built, missing⟩ := (Option.any_eq_true _ _).mp missing
  obtain ⟨roots, tree, read, ran⟩ := exists_run_of_built? built
  refine ⟨roots, tree, last, read, ran, fun sort served => ?_⟩
  obtain ⟨owner, inside, index, -, nested, there, concrete, sorted, branch, held, lacks⟩ :=
    of_decide_eq_true missing sort
  exact lacks (served owner (Model.mem_ids.mp inside) index nested (Option.mem_toList.mp there)
    concrete sorted branch held)

end SchemaClasses
