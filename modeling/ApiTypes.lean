import ApiTypes.Command
import ApiTypes.Decimal.Binary64
import ApiTypes.Decimal.Layout
import ApiTypes.Decimal.Shortest
import ApiTypes.Document.Json
import ApiTypes.Document.Record
import ApiTypes.Document.Value
import ApiTypes.Document.Yaml.Cursor
import ApiTypes.Document.Yaml.Layout
import ApiTypes.Document.Yaml.Node
import ApiTypes.Document.Yaml.Plain
import ApiTypes.Document.Yaml.Printer
import ApiTypes.Document.Yaml.Scalar
import ApiTypes.Document.Yaml.Token
import ApiTypes.Error
import ApiTypes.Main
import ApiTypes.Mapping.Document
import ApiTypes.Mapping.Entry
import ApiTypes.Mapping.Lookup
import ApiTypes.Mapping.Rule
import ApiTypes.Mapping.TypeExpr
import ApiTypes.Model.Annotation
import ApiTypes.Model.Constraints
import ApiTypes.Model.ModelType
import ApiTypes.Model.Naming
import ApiTypes.Model.Primitive
import ApiTypes.Model.TypeStore
import ApiTypes.OpenApi.Description
import ApiTypes.OpenApi.Load
import ApiTypes.OpenApi.Reading
import ApiTypes.OpenApi.Schema
import ApiTypes.OpenApi.Version30
import ApiTypes.OpenApi.Version31
import ApiTypes.Options
import ApiTypes.OrderedMap
import ApiTypes.Pointer
import ApiTypes.Proofs.Decimal.Canonical
import ApiTypes.Proofs.Decimal.Integers
import ApiTypes.Proofs.Decimal.Nearest
import ApiTypes.Proofs.Decimal.Whole
import ApiTypes.Proofs.Document.Characters
import ApiTypes.Proofs.Document.Equality
import ApiTypes.Proofs.Document.Loops
import ApiTypes.Proofs.Document.Tidy
import ApiTypes.Proofs.Mapping.Annotations
import ApiTypes.Proofs.Mapping.Arguments
import ApiTypes.Proofs.Mapping.Collected
import ApiTypes.Proofs.Mapping.Inlined
import ApiTypes.Proofs.Mapping.Literals
import ApiTypes.Proofs.Mapping.Named
import ApiTypes.Proofs.Mapping.Parsed
import ApiTypes.Proofs.Mapping.Precedence
import ApiTypes.Proofs.Mapping.Quoted
import ApiTypes.Proofs.Mapping.Rendering
import ApiTypes.Proofs.Mapping.Scopes
import ApiTypes.Proofs.Mapping.Sources
import ApiTypes.Proofs.Mapping.Spacing
import ApiTypes.Proofs.Mapping.Spelled
import ApiTypes.Proofs.Mapping.Tokens
import ApiTypes.Proofs.OpenApi.Address
import ApiTypes.Proofs.OpenApi.Dangling
import ApiTypes.Proofs.OpenApi.Endpoints
import ApiTypes.Proofs.OpenApi.Followed
import ApiTypes.Proofs.OpenApi.IntegerBounds
import ApiTypes.Proofs.OpenApi.Keywords
import ApiTypes.Proofs.OpenApi.Loading
import ApiTypes.Proofs.OpenApi.Location
import ApiTypes.Proofs.OpenApi.Nodes
import ApiTypes.Proofs.OpenApi.NumericBounds
import ApiTypes.Proofs.OpenApi.Obtained
import ApiTypes.Proofs.OpenApi.Parameters
import ApiTypes.Proofs.OpenApi.Paths
import ApiTypes.Proofs.OpenApi.Place
import ApiTypes.Proofs.OpenApi.Reordered
import ApiTypes.Proofs.OpenApi.Tidy
import ApiTypes.Proofs.OpenApi.Without
import ApiTypes.Proofs.Resolve.Chains
import ApiTypes.Proofs.Resolve.Constrained
import ApiTypes.Proofs.Resolve.Keys
import ApiTypes.Proofs.Resolve.Reference
import ApiTypes.Proofs.Resolve.Reordered
import ApiTypes.Proofs.Resolve.SameReferences
import ApiTypes.Proofs.Store.Appending
import ApiTypes.Proofs.Store.Bounds
import ApiTypes.Proofs.Store.Distinct
import ApiTypes.Proofs.Store.Imports
import ApiTypes.Proofs.Store.Likeness
import ApiTypes.Proofs.Store.Merged
import ApiTypes.Proofs.Store.Renaming
import ApiTypes.Proofs.Store.Sameness
import ApiTypes.Proofs.Store.View
import ApiTypes.Proofs.Text.Padding
import ApiTypes.Proofs.Text.Percent
import ApiTypes.Proofs.Walk.Alone
import ApiTypes.Proofs.Walk.Annotated
import ApiTypes.Proofs.Walk.Calls
import ApiTypes.Proofs.Walk.Closed
import ApiTypes.Proofs.Walk.Components
import ApiTypes.Proofs.Walk.Composed
import ApiTypes.Proofs.Walk.Constituents
import ApiTypes.Proofs.Walk.Cycles
import ApiTypes.Proofs.Walk.Demand
import ApiTypes.Proofs.Walk.Depth
import ApiTypes.Proofs.Walk.Excluded
import ApiTypes.Proofs.Walk.Failure
import ApiTypes.Proofs.Walk.Faults
import ApiTypes.Proofs.Walk.Globals
import ApiTypes.Proofs.Walk.Growth
import ApiTypes.Proofs.Walk.InlineNames
import ApiTypes.Proofs.Walk.Knots
import ApiTypes.Proofs.Walk.Likeness
import ApiTypes.Proofs.Walk.Lockstep
import ApiTypes.Proofs.Walk.Matching
import ApiTypes.Proofs.Walk.Meeting
import ApiTypes.Proofs.Walk.Models
import ApiTypes.Proofs.Walk.Names
import ApiTypes.Proofs.Walk.Nesting
import ApiTypes.Proofs.Walk.Once
import ApiTypes.Proofs.Walk.Operations
import ApiTypes.Proofs.Walk.Orders
import ApiTypes.Proofs.Walk.Outcome
import ApiTypes.Proofs.Walk.Parts
import ApiTypes.Proofs.Walk.Pending
import ApiTypes.Proofs.Walk.Purposes
import ApiTypes.Proofs.Walk.Raised
import ApiTypes.Proofs.Walk.Reach
import ApiTypes.Proofs.Walk.Recursion
import ApiTypes.Proofs.Walk.Remembered
import ApiTypes.Proofs.Walk.Rendered
import ApiTypes.Proofs.Walk.Request
import ApiTypes.Proofs.Walk.Results
import ApiTypes.Proofs.Walk.Retry
import ApiTypes.Proofs.Walk.Run
import ApiTypes.Proofs.Walk.Settled
import ApiTypes.Proofs.Walk.Sharing
import ApiTypes.Proofs.Walk.Slots
import ApiTypes.Proofs.Walk.Sound
import ApiTypes.Proofs.Walk.Spellings
import ApiTypes.Proofs.Walk.Statuses
import ApiTypes.Proofs.Walk.Stuck
import ApiTypes.Proofs.Walk.Targets
import ApiTypes.Proofs.Walk.Tiles
import ApiTypes.Proofs.Walk.Twins
import ApiTypes.Proofs.Walk.Usage
import ApiTypes.Report
import ApiTypes.Resolve.Api
import ApiTypes.Resolve.Bounds
import ApiTypes.Resolve.Reference
import ApiTypes.Resolve.Target
import ApiTypes.Resolve.Walk
import ApiTypes.Text.Blank
import ApiTypes.Text.CamelCase
import ApiTypes.Text.Digit
import ApiTypes.Text.Letter
import ApiTypes.Text.Percent
import ApiTypes.Text.Printable
import ApiTypes.Text.Quoted
import ApiTypes.Validation
