import SchemaClasses.Settings
import SchemaClasses.Settings.Value

/-! Settings read from structured values, under exact or forgiving rules for scalars. -/

namespace SchemaClasses

/-- How values are looked into, and how scalars and records are read. -/
structure ReadingRules (α : Type) where
  members? : α → Option (List (String × α))
  items? : α → Option (List α)
  isNothing : α → Bool
  bool? : α → Option Bool
  text? : α → Option String
  /-- The word that stands for a choice, alone or as the only member of an object. -/
  word? : α → Option String
  /-- Whether a written word names a choice. -/
  sameWord : String → String → Bool
  /-- Whether an array may hold more items than the record it stands for has fields. -/
  surplus : Bool

namespace ReadingRules

/-- Every value must have the type of its field. -/
def exact : ReadingRules Json where
  members? := Json.members?
  items? := Json.items?
  isNothing value := value == .null
  bool? := Json.bool?
  text? := Json.text?
  word?
    | .string word => some word
    | .object [(word, .null)] => some word
    | _ => none
  sameWord := (· == ·)
  surplus := false

/-- Scalars are converted to the type of their field, and choices are written in any case. -/
def forgiving : ReadingRules Setting where
  members? := Setting.entries?
  items? := Setting.items?
  isNothing := Setting.isNothing
  bool? := Setting.truth?
  text? := Setting.wording?
  word?
    | .text word => some word
    | .table [(word, _)] => some word
    | _ => none
  sameWord a b := lowerText a == lowerText b
  surplus := true

variable {α : Type}

/-- The fields of a record: the members of an object, or the items of an array by position. -/
def fields? (rules : ReadingRules α) (names : List String) (value : α) :
    Option (String → Option α) :=
  match rules.members? value, rules.items? value with
  | some members, _ => some fun name => members.lookup name
  | none, some items =>
    if rules.surplus || items.length ≤ names.length then
      some fun name => (names.zip items).lookup name
    else none
  | none, none => none

/-- A choice by its name. -/
def choice? {β : Type} (rules : ReadingRules α) (all : List β) (name : β → String) (value : α) :
    Option β :=
  (rules.word? value).bind fun word => all.find? fun choice => rules.sameWord (name choice) word

/-- A text that may be absent. -/
def optionalText? (rules : ReadingRules α) (value : α) : Option (Option String) :=
  if rules.isNothing value then some none else (rules.text? value).map some

/-- A list of values. -/
def list? {β : Type} (rules : ReadingRules α) (read : α → Option β) (value : α) :
    Option (List β) :=
  (rules.items? value).bind fun items => items.mapM read

/-- A table of values. -/
def table? {β : Type} (rules : ReadingRules α) (read : α → Option β) (value : α) :
    Option (Keyed β) := do
  let members ← rules.members? value
  let entries ← members.mapM fun (key, value) => (read value).map fun read => (key, read)
  return .ofList entries

/-- The value of a field, or its default where the field is missing. -/
def orDefault {β : Type} (field : Option α) (default : β) (read : α → Option β) : Option β :=
  match field with
  | some value => read value
  | none => some default

/-- The generator's settings. -/
def generator? (rules : ReadingRules α) (value : α) : Option GeneratorSettings := do
  let field ← rules.fields? ["target_language", "base_package", "derive_package_from_structure",
    "strict_additional_properties", "nested_class_name", "examples_blocking",
    "generator_comment"] value
  let standard : GeneratorSettings := {}
  return {
    language := ← orDefault (field "target_language") standard.language
      (rules.choice? Language.all Language.name)
    basePackage := ← orDefault (field "base_package") standard.basePackage rules.optionalText?
    packageFromStructure := ← orDefault (field "derive_package_from_structure")
      standard.packageFromStructure rules.bool?
    strictAdditional := ← orDefault (field "strict_additional_properties")
      standard.strictAdditional rules.bool?
    nestedNaming := ← orDefault (field "nested_class_name") standard.nestedNaming
      (rules.choice? NestedNaming.all NestedNaming.name)
    examplesBlocking := ← orDefault (field "examples_blocking") standard.examplesBlocking
      rules.bool?
    comment := ← orDefault (field "generator_comment") standard.comment rules.optionalText? }

/-- The naming settings. -/
def naming? (rules : ReadingRules α) (value : α) : Option NamingSettings := do
  let field ← rules.fields? ["acronyms", "preserve_screaming_case"] value
  let standard : NamingSettings := {}
  return {
    acronyms := ← orDefault (field "acronyms") standard.acronyms (rules.list? rules.text?)
    preserveScreamingCase := ← orDefault (field "preserve_screaming_case")
      standard.preserveScreamingCase rules.bool? }

/-- A custom class; only its capabilities may be missing. -/
def customClass? (rules : ReadingRules α) (value : α) : Option CustomClass := do
  let field ← rules.fields? ["class_name", "capabilities"] value
  return {
    className := ← rules.text? (← field "class_name")
    capabilities := ← orDefault (field "capabilities") []
      (rules.list? (rules.choice? Capability.all Capability.name)) }

/-- The tables of custom classes. -/
def customClasses? (rules : ReadingRules α) (value : α) : Option CustomClassTables := do
  let field ← rules.fields? ["uri", "format", "extension"] value
  return {
    uri := ← orDefault (field "uri") {} (rules.table? rules.customClass?)
    format := ← orDefault (field "format") {} (rules.table? rules.customClass?)
    extension := ← orDefault (field "extension") {} (rules.table? (rules.table? rules.customClass?)) }

/-- All settings; missing sections and fields take their defaults, unknown ones are ignored. -/
def settings? (rules : ReadingRules α) (value : α) : Option Settings := do
  let field ← rules.fields? ["generator", "naming", "class_names", "custom_classes"] value
  return {
    generator := ← orDefault (field "generator") {} rules.generator?
    naming := ← orDefault (field "naming") {} rules.naming?
    classNames := ← orDefault (field "class_names") {} (rules.table? rules.text?)
    customClasses := ← orDefault (field "custom_classes") {} rules.customClasses? }

end ReadingRules

/-- The settings that a JSON value states. -/
def Settings.ofJson (value : Json) : Except Fault Settings :=
  match ReadingRules.exact.settings? value with
  | some settings => .ok settings
  | none => .error (.malformedJson "the settings have a value of the wrong type")

end SchemaClasses
