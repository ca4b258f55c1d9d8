import SearchWire.Admin.Alias
import SearchWire.Admin.Index
import SearchWire.Clause.Basic
import SearchWire.Clause.Compile
import SearchWire.Clause.Leaf
import SearchWire.Clause.QueryText
import SearchWire.Clause.Score
import SearchWire.Criteria.Basic
import SearchWire.Criteria.Chain
import SearchWire.Criteria.Operator
import SearchWire.Criteria.Record
import SearchWire.Descriptor.Attribute
import SearchWire.Descriptor.Catalogue
import SearchWire.Failure
import SearchWire.Indices.Coordinates
import SearchWire.Indices.Options
import SearchWire.Json.Document
import SearchWire.Json.KeyOrder
import SearchWire.Json.Reader
import SearchWire.Json.Writer
import SearchWire.Mapping.Entity
import SearchWire.Mapping.Path
import SearchWire.Mapping.Registry
import SearchWire.Mapping.Standard
import SearchWire.Mapping.TypeExpr
import SearchWire.Number.Decimal
import SearchWire.Number.Double
import SearchWire.Number.Numeral
import SearchWire.Proofs.Admin.Aliases
import SearchWire.Proofs.Admin.Suits
import SearchWire.Proofs.Clause.Compile
import SearchWire.Proofs.Clause.Failure
import SearchWire.Proofs.Clause.Order
import SearchWire.Proofs.Clause.QueryText
import SearchWire.Proofs.Clause.Regular
import SearchWire.Proofs.Clause.Truth
import SearchWire.Proofs.Clause.Walk
import SearchWire.Proofs.Clause.WellFormed
import SearchWire.Proofs.Criteria.Basic
import SearchWire.Proofs.Criteria.Fluent
import SearchWire.Proofs.Criteria.Normal
import SearchWire.Proofs.Criteria.Order
import SearchWire.Proofs.Criteria.Record
import SearchWire.Proofs.Criteria.Rename
import SearchWire.Proofs.Criteria.Truth
import SearchWire.Proofs.Criteria.Weight
import SearchWire.Proofs.Descriptor.Legible
import SearchWire.Proofs.Descriptor.Reading
import SearchWire.Proofs.Descriptor.Validated
import SearchWire.Proofs.Failure
import SearchWire.Proofs.Json.Data
import SearchWire.Proofs.Json.Depth
import SearchWire.Proofs.Json.Document
import SearchWire.Proofs.Json.Float
import SearchWire.Proofs.Json.Number
import SearchWire.Proofs.Json.Order
import SearchWire.Proofs.Json.Read
import SearchWire.Proofs.Json.RoundTrip
import SearchWire.Proofs.Json.Source
import SearchWire.Proofs.Json.Text
import SearchWire.Proofs.Json.Translated
import SearchWire.Proofs.Mapping.Build
import SearchWire.Proofs.Mapping.Declared
import SearchWire.Proofs.Mapping.Instance
import SearchWire.Proofs.Mapping.Path
import SearchWire.Proofs.Mapping.Registry
import SearchWire.Proofs.Mapping.Unwrap
import SearchWire.Proofs.Number.Rounding
import SearchWire.Proofs.Number.Shortest
import SearchWire.Proofs.Query.Clause
import SearchWire.Proofs.Query.Embedding
import SearchWire.Proofs.Query.Rename
import SearchWire.Proofs.Reindex.Parts
import SearchWire.Proofs.Request.Calls
import SearchWire.Proofs.Request.Exact
import SearchWire.Proofs.Request.Lists
import SearchWire.Proofs.Request.Make
import SearchWire.Proofs.Request.Params
import SearchWire.Proofs.Request.Part
import SearchWire.Proofs.Request.Remake
import SearchWire.Proofs.Request.Shows
import SearchWire.Proofs.Request.Split
import SearchWire.Proofs.Request.Suits
import SearchWire.Proofs.Request.Text
import SearchWire.Proofs.Schema.Check
import SearchWire.Proofs.Schema.Record
import SearchWire.Proofs.Schema.Wire
import SearchWire.Proofs.Search.Distance
import SearchWire.Proofs.Search.Options
import SearchWire.Proofs.Search.Paging
import SearchWire.Proofs.Search.Rename
import SearchWire.Proofs.Search.Reserved
import SearchWire.Proofs.Search.Suits
import SearchWire.Proofs.Time.Duration
import SearchWire.Proofs.Value.Dump
import SearchWire.Proofs.Value.Fields
import SearchWire.Proofs.Value.Height
import SearchWire.Proofs.Value.Plain
import SearchWire.Proofs.Value.Wire
import SearchWire.Proofs.Write.Bulk
import SearchWire.Proofs.Write.Document
import SearchWire.Proofs.Write.Framing
import SearchWire.Proofs.Write.Lines
import SearchWire.Proofs.Write.Suits
import SearchWire.Proofs.Write.Target
import SearchWire.Query.Basic
import SearchWire.Query.Hits
import SearchWire.Query.Paging
import SearchWire.Query.Record
import SearchWire.Query.Sort
import SearchWire.Reindex.Basic
import SearchWire.Reindex.Request
import SearchWire.Request.Basic
import SearchWire.Request.Text
import SearchWire.Request.Timeout
import SearchWire.Schema.Check
import SearchWire.Schema.Declaration
import SearchWire.Schema.Issue
import SearchWire.Schema.Model
import SearchWire.Schema.Shape
import SearchWire.Schema.Worded
import SearchWire.Search.Request
import SearchWire.Search.Sort
import SearchWire.Settings
import SearchWire.Text.Digit
import SearchWire.Text.Printable
import SearchWire.Text.Quoted
import SearchWire.Text.Uppercase
import SearchWire.Time.Date
import SearchWire.Time.Duration
import SearchWire.Value.Basic
import SearchWire.Value.Display
import SearchWire.Value.Dump
import SearchWire.Value.Reading
import SearchWire.Write.Basic
import SearchWire.Write.Bulk
import SearchWire.Write.Request
