import SchemaClasses.Inspection
import SchemaClasses.Main
import SchemaClasses.Proofs.Aliases
import SchemaClasses.Proofs.Names
import SchemaClasses.Proofs.Resolution.Sharing
import SchemaClasses.Proofs.Catalogue.Branches
import SchemaClasses.Proofs.Catalogue.Forests
import SchemaClasses.Proofs.Catalogue.Paths
import SchemaClasses.Proofs.Catalogue.Properties
import SchemaClasses.Proofs.Negation.Meaning
import SchemaClasses.Proofs.Planning.Bounds
import SchemaClasses.Proofs.Planning.Locality
import SchemaClasses.Proofs.Planning.Properties
import SchemaClasses.Proofs.Planning.Width
import SchemaClasses.Proofs.Reading.Faithful
import SchemaClasses.Proofs.Reading.Relative
import SchemaClasses.Proofs.Resolution.Concurrence
import SchemaClasses.Proofs.Resolution.Likeness
import SchemaClasses.Proofs.Resolution.Order
import SchemaClasses.Proofs.Resolution.Verdicts
import SchemaClasses.Proofs.Survey.Repetition
import SchemaClasses.Proofs.Survey.Walk
import SchemaClasses.Proofs.Survey.WellFormed
import SchemaClasses.Proofs.Survey.Reordering
import SchemaClasses.Proofs.Resolution.Imports
