import Schemata.Attempt
import Schemata.Command.Options
import Schemata.Command.Run
import Schemata.Command.Target
import Schemata.Command.Usage
import Schemata.Conversion.Document
import Schemata.Conversion.Fragment
import Schemata.Conversion.Output
import Schemata.Declaration.Attribute
import Schemata.Declaration.Basic
import Schemata.Declaration.Display
import Schemata.Declaration.Docstring
import Schemata.Declaration.Documentation
import Schemata.Declaration.Enumeration
import Schemata.Declaration.Evaluation
import Schemata.Declaration.Fields
import Schemata.Declaration.Forms
import Schemata.Declaration.Hint
import Schemata.Declaration.Introspection
import Schemata.Declaration.Literal
import Schemata.Declaration.Reader
import Schemata.Declaration.Value
import Schemata.Descriptor.Basic
import Schemata.Descriptor.Introspection
import Schemata.Error
import Schemata.Expression.Parser
import Schemata.Expression.Token
import Schemata.Files.Temporary
import Schemata.Files.Tree
import Schemata.Files.Writing
import Schemata.Graph.Basic
import Schemata.Graph.Validation
import Schemata.Introspection.Annotation
import Schemata.Introspection.Outcome
import Schemata.Introspection.Session
import Schemata.Json.Basic
import Schemata.Json.Binary64
import Schemata.Json.Decimal
import Schemata.Json.Parser
import Schemata.Json.Printer
import Schemata.Main
import Schemata.Proofs.Attempt
import Schemata.Proofs.Conversion.Addresses
import Schemata.Proofs.Conversion.Breakage
import Schemata.Proofs.Conversion.Budget
import Schemata.Proofs.Conversion.Calls
import Schemata.Proofs.Conversion.Correspondence
import Schemata.Proofs.Conversion.Description
import Schemata.Proofs.Conversion.Dialects
import Schemata.Proofs.Conversion.Encoding
import Schemata.Proofs.Conversion.Exclusion
import Schemata.Proofs.Conversion.Failure
import Schemata.Proofs.Conversion.Holders
import Schemata.Proofs.Conversion.Identifiers
import Schemata.Proofs.Conversion.Nesting
import Schemata.Proofs.Conversion.NullValues
import Schemata.Proofs.Conversion.Options
import Schemata.Proofs.Conversion.Outline
import Schemata.Proofs.Conversion.Pointers
import Schemata.Proofs.Conversion.Positions
import Schemata.Proofs.Conversion.Presence
import Schemata.Proofs.Conversion.Progress
import Schemata.Proofs.Conversion.Promises
import Schemata.Proofs.Conversion.Requirements
import Schemata.Proofs.Conversion.Resolution
import Schemata.Proofs.Conversion.Run
import Schemata.Proofs.Conversion.Sites
import Schemata.Proofs.Conversion.Strictness
import Schemata.Proofs.Conversion.Termination
import Schemata.Proofs.Conversion.Tree
import Schemata.Proofs.Conversion.Unfolding
import Schemata.Proofs.Conversion.Usage
import Schemata.Proofs.Declaration.Announcement
import Schemata.Proofs.Declaration.Depiction
import Schemata.Proofs.Declaration.Exclusion
import Schemata.Proofs.Declaration.Hierarchy
import Schemata.Proofs.Declaration.Identity
import Schemata.Proofs.Declaration.Introspection
import Schemata.Proofs.Declaration.Nullability
import Schemata.Proofs.Declaration.Ownership
import Schemata.Proofs.Descriptor.BreadthFirst
import Schemata.Proofs.Descriptor.Clashes
import Schemata.Proofs.Descriptor.Depiction
import Schemata.Proofs.Descriptor.Faults
import Schemata.Proofs.Descriptor.Introspection
import Schemata.Proofs.Descriptor.Naming
import Schemata.Proofs.Descriptor.Plain
import Schemata.Proofs.Descriptor.Refinement
import Schemata.Proofs.Descriptor.Termination
import Schemata.Proofs.Files.Writing
import Schemata.Proofs.Graph.Circles
import Schemata.Proofs.Graph.Reachability
import Schemata.Proofs.Graph.Renaming
import Schemata.Proofs.Graph.Validity
import Schemata.Proofs.Graph.Worklist
import Schemata.Proofs.Introspection.Begins
import Schemata.Proofs.Introspection.Defaults
import Schemata.Proofs.Introspection.References
import Schemata.Proofs.Introspection.Requirements
import Schemata.Proofs.Introspection.Scripts
import Schemata.Proofs.Introspection.Session
import Schemata.Proofs.Introspection.Steps
import Schemata.Proofs.Json.Address
import Schemata.Proofs.Json.Numbers
import Schemata.Proofs.Json.Parsed
import Schemata.Proofs.Json.Regular
import Schemata.Proofs.Json.RoundTrip
import Schemata.Proofs.Json.Rounding
import Schemata.Proofs.Json.Strings
import Schemata.Proofs.Schema.Allowance
import Schemata.Proofs.Schema.Decoding
import Schemata.Proofs.Schema.Encodable
import Schemata.Proofs.Schema.Faults
import Schemata.Proofs.Schema.Positions
import Schemata.Proofs.Schema.Readable
import Schemata.Proofs.Schema.Reading
import Schemata.Proofs.Schema.Renaming
import Schemata.Proofs.Schema.Rereading
import Schemata.Proofs.Schema.Unions
import Schemata.Schema.Decoding
import Schemata.Schema.Definition
import Schemata.Schema.Equality
import Schemata.Schema.Rendering
import Schemata.Settings.Flags
import Schemata.Settings.Generator
import Schemata.Settings.Introspection
import Schemata.Settings.Lookup
import Schemata.Table
import Schemata.Text.CharRange
import Schemata.Text.Lines
import Schemata.Text.LowerCase
import Schemata.Text.Number
import Schemata.Text.Quoted
import Schemata.Text.Similarity
import Schemata.Text.Styling
