import SchemaClasses.Check
import SchemaClasses.Record

/-! The ledger of a run: all records, and the sets of checks that they own. -/

namespace SchemaClasses

/-- Records and sets of checks by number; a record and its negation share one set. -/
structure Ledger where
  records : Array Record := #[]
  checkSets : Array CheckSet := #[]
deriving Repr, Inhabited

namespace Ledger

/-- The number of records. -/
def size (ledger : Ledger) : Nat := ledger.records.size

/-- The numbers of all records. -/
def ids (ledger : Ledger) : List RecordId := (List.range ledger.size).map RecordId.mk

/-- The record of a number. -/
def record (ledger : Ledger) (id : RecordId) : Record := ledger.records.getD id.index default

/-- The ledger with one record changed. -/
def update (ledger : Ledger) (id : RecordId) (change : Record → Record) : Ledger :=
  { ledger with records := ledger.records.modify id.index change }

/-- The checks of a record. -/
def checks (ledger : Ledger) (id : RecordId) : CheckSet :=
  ledger.checkSets.getD (ledger.record id).checks.index {}

/-- The ledger with the checks of one record changed. -/
def updateChecks (ledger : Ledger) (id : RecordId) (change : CheckSet → CheckSet) : Ledger :=
  { ledger with checkSets := ledger.checkSets.modify (ledger.record id).checks.index change }

/-- A record added under the next number. -/
def push (ledger : Ledger) (record : Record) : RecordId × Ledger :=
  (⟨ledger.records.size⟩, { ledger with records := ledger.records.push record })

/-- A set of checks added under the next number. -/
def pushChecks (ledger : Ledger) (set : CheckSet) : CheckSetId × Ledger :=
  (⟨ledger.checkSets.size⟩, { ledger with checkSets := ledger.checkSets.push set })

/-- A fresh record with a set of checks of its own. -/
def create (ledger : Ledger) (schema : Option SchemaId) (name : Option String) :
    RecordId × Ledger :=
  let (checks, ledger) := ledger.pushChecks {}
  ledger.push { schema, name, checks }

/-- The negation of a record, made on first use; the negation of a negation is the record itself. -/
def negation (ledger : Ledger) (id : RecordId) : RecordId × Ledger :=
  let record := ledger.record id
  match record.negationOf, record.negation with
  | some positive, _ => (positive, ledger)
  | none, some negation => (negation, ledger)
  | none, none =>
    let (negation, ledger) := ledger.push
      { schema := record.schema, name := record.name, checks := record.checks,
        negationOf := some id }
    (negation, ledger.update id fun record => { record with negation := some negation })

/-- A copy of a record with a copy of its checks and without a negation. -/
def duplicate (ledger : Ledger) (id : RecordId) : RecordId × Ledger :=
  let (checks, ledger) := ledger.pushChecks (ledger.checks id)
  ledger.push { ledger.record id with checks, negation := none }

/-- The types that decide the shape; a negation that states none takes those of its record. -/
def effectiveTypes (ledger : Ledger) (id : RecordId) : List JsonType :=
  let record := ledger.record id
  match record.negationOf with
  | some positive => if record.types.isEmpty then (ledger.record positive).types else record.types
  | none => record.types

/-- The property of a name. -/
def property? (ledger : Ledger) (id : RecordId) (name : String) : Option RecordId :=
  (ledger.record id).properties.find? fun property => (ledger.record property).name == some name

/-- The property of a name, made for a schema on first use. -/
def property (ledger : Ledger) (id : RecordId) (name : String) (schema : SchemaId) :
    RecordId × Ledger :=
  match ledger.property? id name with
  | some property => (property, ledger)
  | none =>
    let (property, ledger) := ledger.create (some schema) (some name)
    (property, ledger.update id fun record =>
      { record with properties := record.properties ++ [property] })

/-- The value of the properties that match a pattern, made for a schema on first use. -/
def patternProperty (ledger : Ledger) (id : RecordId) (pattern : String) (schema : SchemaId) :
    RecordId × Ledger :=
  match (ledger.record id).patternProperties.find? fun entry => entry.pattern == pattern with
  | some entry => (entry.record, ledger)
  | none =>
    let (value, ledger) := ledger.create (some schema) none
    (value, ledger.update id fun record =>
      { record with patternProperties := record.patternProperties ++ [⟨pattern, value, none⟩] })

/-- The items of an array, made for a schema on first use. -/
def items (ledger : Ledger) (id : RecordId) (schema : SchemaId) : RecordId × Ledger :=
  match (ledger.record id).items with
  | some items => (items, ledger)
  | none =>
    let (items, ledger) := ledger.create (some schema) none
    (items, ledger.update id fun record => { record with items := some items })

end Ledger

end SchemaClasses
