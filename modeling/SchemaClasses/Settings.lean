import SchemaClasses.ClassName
import SchemaClasses.CustomClass

/-! The settings of a run. -/

namespace SchemaClasses

/-- Where a class for a referenced schema takes its name from. -/
inductive NestedNaming where
  | property
  | refSchema
deriving DecidableEq, Repr, Inhabited

/-- The name that settings and output use. -/
def NestedNaming.name : NestedNaming → String
  | property => "property"
  | refSchema => "ref_schema"

/-- All sources of class names. -/
def NestedNaming.all : List NestedNaming := [property, refSchema]

/-- What classes are generated and how strictly. -/
structure GeneratorSettings where
  language : Language := .kotlin
  basePackage : Option String := none
  /-- Whether sub-directories of the input extend the base package. -/
  packageFromStructure : Bool := true
  /-- Whether constraints on additional and pattern properties are enforced. -/
  strictAdditional : Bool := false
  nestedNaming : NestedNaming := .property
  /-- Whether invalid examples and defaults stop the run. -/
  examplesBlocking : Bool := false
  /-- A comment handed on to the output. -/
  comment : Option String := none
deriving Repr, Inhabited

/-- Everything that steers a run. -/
structure Settings where
  generator : GeneratorSettings := {}
  naming : NamingSettings := {}
  /-- Class names by document URI. -/
  classNames : Keyed String := {}
  customClasses : CustomClassTables := {}
deriving Repr, Inhabited

/-- Refuses settings with an invalid custom class name. -/
def Settings.validate (settings : Settings) : Except Fault Unit :=
  settings.customClasses.validate

end SchemaClasses
