import Workflow.Composition.Basic
import Workflow.Composition.Direct
import Workflow.Composition.Expansion
import Workflow.Composition.Guard
import Workflow.Decimal.Binary
import Workflow.Decimal.Division
import Workflow.Decimal.Layout
import Workflow.Decimal.Nearest
import Workflow.Decimal.Shortest
import Workflow.Definition.Basic
import Workflow.Definition.Decode
import Workflow.Definition.Encode
import Workflow.Definition.Load
import Workflow.Dialect.Basic
import Workflow.Dialect.Brace
import Workflow.Dialect.Delimited
import Workflow.Dialect.Diagnostic
import Workflow.Dialect.Registry
import Workflow.Dialect.Segment
import Workflow.Expression.Basic
import Workflow.Expression.Evaluation
import Workflow.Expression.Fault
import Workflow.Expression.Grammar
import Workflow.Expression.Lexing
import Workflow.Expression.Malformed
import Workflow.Expression.Operators
import Workflow.Expression.Token
import Workflow.Expression.Variables
import Workflow.Graph.Basic
import Workflow.Graph.Document
import Workflow.Graph.Json
import Workflow.Graph.Lookup
import Workflow.Graph.Operations
import Workflow.Graph.Session
import Workflow.Inspection.Json
import Workflow.Inspection.Report
import Workflow.Inspection.Shape
import Workflow.Inspection.Structure
import Workflow.Inspection.Vocabulary
import Workflow.Json.Numeral
import Workflow.Json.Reader
import Workflow.Json.Record
import Workflow.Json.Tree
import Workflow.Json.Writer
import Workflow.Limits
import Workflow.Plan.Basic
import Workflow.Plan.Links
import Workflow.Plan.Site
import Workflow.Proofs.Addresses
import Workflow.Proofs.Arrivals
import Workflow.Proofs.Decimal.Doubles
import Workflow.Proofs.Decimal.Finite
import Workflow.Proofs.Decimal.Rounding
import Workflow.Proofs.Definition.Fields
import Workflow.Proofs.Definition.Respelling
import Workflow.Proofs.Definition.RoundTrip
import Workflow.Proofs.Dialect.Agreement
import Workflow.Proofs.Dialect.Cuts
import Workflow.Proofs.Dialect.Dependence
import Workflow.Proofs.Dialect.Interpolation
import Workflow.Proofs.Dialect.Markers
import Workflow.Proofs.Dialect.Validation
import Workflow.Proofs.Direct.Composed
import Workflow.Proofs.Direct.Cycles
import Workflow.Proofs.Direct.Inspected
import Workflow.Proofs.Direct.Limits
import Workflow.Proofs.Direct.Order
import Workflow.Proofs.Direct.Parallel
import Workflow.Proofs.Direct.ReachedPart
import Workflow.Proofs.Direct.References
import Workflow.Proofs.Direct.Traces
import Workflow.Proofs.Direct.Walk
import Workflow.Proofs.Expansion.Admission
import Workflow.Proofs.Expansion.Agreement
import Workflow.Proofs.Expansion.Arrivals
import Workflow.Proofs.Expansion.Collisions
import Workflow.Proofs.Expansion.Failures
import Workflow.Proofs.Expansion.Faithful
import Workflow.Proofs.Expansion.Forest
import Workflow.Proofs.Expansion.ForkChains
import Workflow.Proofs.Expansion.Forkless
import Workflow.Proofs.Expansion.Instances
import Workflow.Proofs.Expansion.Limits
import Workflow.Proofs.Expansion.Lineages
import Workflow.Proofs.Expansion.Loops
import Workflow.Proofs.Expansion.Losses
import Workflow.Proofs.Expansion.Naming
import Workflow.Proofs.Expansion.Outcome
import Workflow.Proofs.Expansion.Step
import Workflow.Proofs.Expansion.Termination
import Workflow.Proofs.Expansion.Unfolding
import Workflow.Proofs.Expansion.Unsplit
import Workflow.Proofs.Expression.Accepted
import Workflow.Proofs.Expression.Arithmetic
import Workflow.Proofs.Expression.Comparison
import Workflow.Proofs.Expression.Completeness
import Workflow.Proofs.Expression.Dependence
import Workflow.Proofs.Expression.Derivations
import Workflow.Proofs.Expression.Equality
import Workflow.Proofs.Expression.Height
import Workflow.Proofs.Expression.Lexing
import Workflow.Proofs.Expression.Printed
import Workflow.Proofs.Expression.Renaming
import Workflow.Proofs.Expression.Soundness
import Workflow.Proofs.Expression.Texts
import Workflow.Proofs.Expression.Written
import Workflow.Proofs.ForkChains
import Workflow.Proofs.Graph.Alike
import Workflow.Proofs.Graph.Consistency
import Workflow.Proofs.Graph.Failures
import Workflow.Proofs.Graph.Loading
import Workflow.Proofs.Graph.Lookup
import Workflow.Proofs.Graph.Merging
import Workflow.Proofs.Graph.Nodes
import Workflow.Proofs.Graph.Paths
import Workflow.Proofs.Graph.Reading
import Workflow.Proofs.Graph.RoundTrip
import Workflow.Proofs.Graph.Session
import Workflow.Proofs.Graph.Stepwise
import Workflow.Proofs.Graph.Transitions
import Workflow.Proofs.Guard.Guards
import Workflow.Proofs.Guard.Mentions
import Workflow.Proofs.Guard.Segments
import Workflow.Proofs.Guard.Tokens
import Workflow.Proofs.Guard.Words
import Workflow.Proofs.Inspection.Ambiguity
import Workflow.Proofs.Inspection.Paths
import Workflow.Proofs.Inspection.Structure
import Workflow.Proofs.Inspection.Vocabulary.Bounds
import Workflow.Proofs.Inspection.Vocabulary.Declarations
import Workflow.Proofs.Inspection.Vocabulary.Mirror
import Workflow.Proofs.Inspection.Vocabulary.Names
import Workflow.Proofs.Inspection.Vocabulary.Outputs
import Workflow.Proofs.Inspection.Vocabulary.Reports
import Workflow.Proofs.Inspection.Vocabulary.Runs
import Workflow.Proofs.Inspection.Vocabulary.Turns
import Workflow.Proofs.Inspection.Vocabulary.Visits
import Workflow.Proofs.Inspection.Vocabulary.Widening
import Workflow.Proofs.Plan.Chains
import Workflow.Proofs.Plan.Links
import Workflow.Proofs.Plan.Network
import Workflow.Proofs.Plan.Paths
import Workflow.Proofs.Plan.Places
import Workflow.Proofs.Plan.Reordering
import Workflow.Proofs.Plan.Routes
import Workflow.Proofs.Plan.Sites
import Workflow.Proofs.Reachability
import Workflow.Proofs.Template.Faults
import Workflow.Proofs.Template.Grammar
import Workflow.Proofs.Template.Lexing
import Workflow.Proofs.Value.Members
import Workflow.Proofs.Value.Same
import Workflow.Proofs.Worklist
import Workflow.Proofs.Yaml.Collections
import Workflow.Proofs.Yaml.Plain
import Workflow.Table
import Workflow.Template.Basic
import Workflow.Template.Datum
import Workflow.Template.Filters
import Workflow.Template.Grammar
import Workflow.Template.Lexing
import Workflow.Template.Operators
import Workflow.Template.Order
import Workflow.Template.Rendering
import Workflow.Template.Variables
import Workflow.Text.Alphabetic
import Workflow.Text.Blank
import Workflow.Text.Case
import Workflow.Text.Numeric
import Workflow.Text.Quoted
import Workflow.Text.Search
import Workflow.Text.Visible
import Workflow.Text.Word
import Workflow.Value.Basic
import Workflow.Value.Number
import Workflow.Worklist
import Workflow.Yaml.Cursor
import Workflow.Yaml.Document
import Workflow.Yaml.Lexing
import Workflow.Yaml.Property
import Workflow.Yaml.Record
import Workflow.Yaml.Resolution
import Workflow.Yaml.Scalar
import Workflow.Yaml.Token
import Workflow.Yaml.Tree
