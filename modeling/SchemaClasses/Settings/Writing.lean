import SchemaClasses.Settings

/-! Settings as JSON values. -/

namespace SchemaClasses

/-- A table as an object. -/
def Keyed.toJson {α : Type} (write : α → Json) (table : Keyed α) : Json :=
  .object (table.entries.map fun (key, value) => (key, write value))

/-- The class name beside the capabilities. -/
def CustomClass.toJson (custom : CustomClass) : Json :=
  .object [("class_name", .string custom.className),
    ("capabilities", .ofTexts (custom.capabilities.map Capability.name))]

/-- The three tables. -/
def CustomClassTables.toJson (tables : CustomClassTables) : Json :=
  .object [("uri", tables.uri.toJson CustomClass.toJson),
    ("format", tables.format.toJson CustomClass.toJson),
    ("extension", tables.extension.toJson (·.toJson CustomClass.toJson))]

/-- The generator's settings, absent texts as null. -/
def GeneratorSettings.toJson (generator : GeneratorSettings) : Json :=
  .object [("target_language", .string generator.language.name),
    ("base_package", .ofText? generator.basePackage),
    ("derive_package_from_structure", .bool generator.packageFromStructure),
    ("strict_additional_properties", .bool generator.strictAdditional),
    ("nested_class_name", .string generator.nestedNaming.name),
    ("examples_blocking", .bool generator.examplesBlocking),
    ("generator_comment", .ofText? generator.comment)]

/-- Words in the order of their code points, each once. -/
def sortedWords (words : List String) : List String :=
  (words.mergeSort fun a b => a ≤ b).eraseDups

/-- The naming settings; the acronyms are a set and shown in order. -/
def NamingSettings.toJson (naming : NamingSettings) : Json :=
  .object [("acronyms", .ofTexts (sortedWords naming.acronyms)),
    ("preserve_screaming_case", .bool naming.preserveScreamingCase)]

/-- All settings. -/
def Settings.toJson (settings : Settings) : Json :=
  .object [("generator", settings.generator.toJson), ("naming", settings.naming.toJson),
    ("class_names", settings.classNames.toJson .string),
    ("custom_classes", settings.customClasses.toJson)]

end SchemaClasses
