import SchemaClasses.Constants
import SchemaClasses.Record

/-! Declarations: the generated classes of their own, and the classes nested in them. -/

namespace SchemaClasses

/-- The kind of a generated class. -/
inductive ClassKind where
  | concrete
  | enumeration
  | interface
deriving DecidableEq, Repr, Inhabited

namespace ClassKind

/-- The word that output uses. -/
def name : ClassKind → String
  | concrete => "class"
  | enumeration => "enum"
  | interface => "interface"

/-- All kinds. -/
def all : List ClassKind := [concrete, enumeration, interface]

end ClassKind

/-- A class inside a declaration. -/
structure NestedClass where
  name : String
  /-- The nested class around it; without one it lies in the declaration itself. -/
  parent : Option Nat
  kind : ClassKind
  record : RecordId
  /-- The schema that the class was made for. -/
  origin : Option SchemaId
  /-- The schema that the origin refers to. -/
  target : Option SchemaId
  interfaces : List ClassRef := []
  /-- Whether the class stands for one branch of a `oneOf`. -/
  isVariant : Bool := false
deriving Repr, Inhabited

/-- A generated class with all that it owns. -/
structure Declaration where
  name : String
  package : Option String
  /-- The URI of the document that the class stands for. -/
  uri : String
  schema : SchemaId
  record : RecordId
  kind : ClassKind
  base : Option DeclarationId := none
  derived : List DeclarationId := []
  interfaces : List ClassRef := []
  nested : Array NestedClass := #[]
  constants : ConstantPool := {}
  libraryTypes : List LibraryType := []
  /-- The qualified names of classes from other packages. -/
  imports : List String := []
  /-- Whether its members have been analysed. -/
  isAnalysed : Bool := false
  /-- Whether its branches have been resolved. -/
  hasVariants : Bool := false
deriving Repr, Inhabited

namespace Declaration

/-- A name behind a package, where there is one. -/
def qualify (package : Option String) (name : String) : String :=
  match package with
  | some package => package ++ "." ++ name
  | none => name

/-- The name with its package. -/
def qualifiedName (declaration : Declaration) : String :=
  qualify declaration.package declaration.name

/-- Whether a class beside it in the same scope has a name already. -/
def isNestedNameTaken (declaration : Declaration) (parent : Option Nat) (name : String) : Bool :=
  declaration.nested.any fun nested => nested.parent == parent && nested.name == name

/-- The first nested class made for a schema or for one with the same target. -/
def findNested? (declaration : Declaration) (origin target : Option SchemaId) : Option Nat :=
  declaration.nested.findIdx? fun nested =>
    (origin.isSome && nested.origin == origin) || (target.isSome && nested.target == target)

/-- A derived class. -/
def addDerived (declaration : Declaration) (id : DeclarationId) : Declaration :=
  { declaration with derived := addNew declaration.derived id }

/-- An interface. -/
def addInterface (declaration : Declaration) (ref : ClassRef) : Declaration :=
  { declaration with interfaces := addNew declaration.interfaces ref }

/-- A qualified name from another package. -/
def addImport (declaration : Declaration) (name : String) : Declaration :=
  { declaration with imports := addNew declaration.imports name }

/-- The library types in use, each once, in their fixed order. -/
def sortedLibraryTypes (declaration : Declaration) : List LibraryType :=
  LibraryType.all.filter fun type => type ∈ declaration.libraryTypes

/-- The imported names in the order of their code points. -/
def sortedImports (declaration : Declaration) : List String :=
  declaration.imports.mergeSort fun a b => a ≤ b

end Declaration

end SchemaClasses
