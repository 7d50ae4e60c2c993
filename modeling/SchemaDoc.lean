import SchemaDoc.Main
import SchemaDoc.Proofs.CommandLine.Sources
import SchemaDoc.Proofs.Documentation.Covered
import SchemaDoc.Proofs.Documentation.Defaults
import SchemaDoc.Proofs.Documentation.Ends
import SchemaDoc.Proofs.Documentation.EntryTypes
import SchemaDoc.Proofs.Documentation.Events
import SchemaDoc.Proofs.Documentation.Excluded
import SchemaDoc.Proofs.Documentation.Linked
import SchemaDoc.Proofs.Documentation.TypeLinks
import SchemaDoc.Proofs.Json.Equality
import SchemaDoc.Proofs.Page.Anchors
import SchemaDoc.Proofs.Page.CodeSpans
import SchemaDoc.Proofs.Page.Signatures
import SchemaDoc.Proofs.Registry.Located
import SchemaDoc.Proofs.Registry.Paths
import SchemaDoc.Proofs.Registry.Subschemas
import SchemaDoc.Proofs.Session.Cycles
import SchemaDoc.Proofs.Session.DeclaredDefaults
import SchemaDoc.Proofs.Session.Exits
import SchemaDoc.Proofs.Session.Expansions
import SchemaDoc.Proofs.Session.Failure
import SchemaDoc.Proofs.Session.Grouping
import SchemaDoc.Proofs.Session.Inherited
import SchemaDoc.Proofs.Session.Order
import SchemaDoc.Proofs.Session.Pruning
import SchemaDoc.Proofs.Session.Selections
import SchemaDoc.Proofs.Session.Signatures
import SchemaDoc.Proofs.Session.Spacing
import SchemaDoc.Proofs.Session.Uses
import SchemaDoc.Proofs.Text.Grouping
import SchemaDoc.Proofs.Ty.Associativity
import SchemaDoc.Proofs.Ty.Sameness
import SchemaDoc.Signature.Lexemes
import SchemaDoc.Proofs.Signature.Quoted
