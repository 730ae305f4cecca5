import RecordApi.Api.Application
import RecordApi.Api.Document
import RecordApi.Api.Failure
import RecordApi.Api.Guard
import RecordApi.Api.Method
import RecordApi.Api.Options
import RecordApi.Api.Payload
import RecordApi.Api.Resource
import RecordApi.Api.Route
import RecordApi.Api.Setup
import RecordApi.Assoc
import RecordApi.Calendar.Date
import RecordApi.Calendar.Iso
import RecordApi.Calendar.Timestamp
import RecordApi.Config.Connection
import RecordApi.Config.Database
import RecordApi.Config.Service
import RecordApi.Console.Frame
import RecordApi.Console.Grid
import RecordApi.Console.Logger
import RecordApi.Console.Markup
import RecordApi.Console.Overview
import RecordApi.Console.Wrap
import RecordApi.Conversion.Field
import RecordApi.Conversion.Moment
import RecordApi.Conversion.Problem
import RecordApi.Conversion.Reading
import RecordApi.Http.Cors
import RecordApi.Http.Message
import RecordApi.Http.Target
import RecordApi.Json.Reader
import RecordApi.Json.Writer
import RecordApi.Number.Binary64
import RecordApi.Number.Decimal
import RecordApi.Number.Numeral
import RecordApi.Number.Power
import RecordApi.Number.Shortest
import RecordApi.Number.Significant
import RecordApi.Params.Brackets
import RecordApi.Params.Decode
import RecordApi.Params.Key
import RecordApi.Params.Tree
import RecordApi.Pattern.Matcher
import RecordApi.Pattern.Reader
import RecordApi.Pattern.Syntax
import RecordApi.Pattern.Wildcard
import RecordApi.Proofs.Api.Answers
import RecordApi.Proofs.Api.Atomicity
import RecordApi.Proofs.Api.Creation
import RecordApi.Proofs.Api.Deletion
import RecordApi.Proofs.Api.Records
import RecordApi.Proofs.Api.Serving
import RecordApi.Proofs.Assoc
import RecordApi.Proofs.Console.Markup
import RecordApi.Proofs.Params.Keys
import RecordApi.Proofs.Params.Leaves
import RecordApi.Proofs.Query.Building
import RecordApi.Proofs.Query.Meaning
import RecordApi.Proofs.Query.Truth
import RecordApi.Proofs.Steps
import RecordApi.Proofs.Storage.Clauses
import RecordApi.Proofs.Storage.Filtering
import RecordApi.Proofs.Storage.Finding
import RecordApi.Proofs.Storage.Keys
import RecordApi.Proofs.Storage.Loading
import RecordApi.Proofs.Storage.Nesting
import RecordApi.Proofs.Storage.ReadingBack
import RecordApi.Proofs.Storage.Relating
import RecordApi.Proofs.Storage.Selecting
import RecordApi.Proofs.Storage.Requiring
import RecordApi.Proofs.Storage.Showing
import RecordApi.Proofs.Storage.Sorting
import RecordApi.Proofs.Storage.Writes
import RecordApi.Query.Builder
import RecordApi.Query.Filter
import RecordApi.Query.Operator
import RecordApi.Query.Order
import RecordApi.Query.Page
import RecordApi.Query.Predicate
import RecordApi.Sample.Hooks
import RecordApi.Sample.Rows
import RecordApi.Sample.Schema
import RecordApi.Sample.Service
import RecordApi.Schema.Model
import RecordApi.Schema.Operand
import RecordApi.Schema.Reflection
import RecordApi.Storage.Binding
import RecordApi.Storage.Cell
import RecordApi.Storage.Clause
import RecordApi.Storage.Database
import RecordApi.Storage.Error
import RecordApi.Storage.Evaluation
import RecordApi.Storage.Reading
import RecordApi.Storage.Relating
import RecordApi.Storage.Statement
import RecordApi.Storage.Writing
import RecordApi.Text.Alphanumeric
import RecordApi.Text.Blank
import RecordApi.Text.Digit
import RecordApi.Text.Percent
import RecordApi.Text.Printable
import RecordApi.Text.Quoted
import RecordApi.Text.Ranges
import RecordApi.Text.Width
import RecordApi.Uuid
import RecordApi.Value.Basic
import RecordApi.Value.Same
import RecordApi.Value.Text
import RecordApi.Proofs.Params.Folding
import RecordApi.Proofs.Params.Indices
import RecordApi.Proofs.Params.Brackets
import RecordApi.Proofs.Json.Reading
import RecordApi.Params.Encoding
import RecordApi.Proofs.Params.Encodings
import RecordApi.Proofs.Params.Decoding
import RecordApi.Proofs.Storage.Lookup
import RecordApi.Proofs.Number.Numerals
import RecordApi.Proofs.Number.Rounding
import RecordApi.Proofs.Query.Paging
import RecordApi.Proofs.Storage.Paging
import RecordApi.Proofs.Storage.Storing
import RecordApi.Proofs.Number.Shortest
import RecordApi.Proofs.Number.Texts
import RecordApi.Proofs.Conversion.Numbers
import RecordApi.Proofs.Conversion.Integers
import RecordApi.Proofs.Conversion.Words
import RecordApi.Proofs.Conversion.Moments
import RecordApi.Proofs.Conversion.Sharing
import RecordApi.Proofs.Storage.Matching
import RecordApi.Proofs.Api.Matching
import RecordApi.Proofs.Api.Calls
import RecordApi.Proofs.Api.Guarding
import RecordApi.Proofs.Api.Rereading
import RecordApi.Proofs.Storage.Conditions
import RecordApi.Proofs.Storage.Straying
import RecordApi.Proofs.Storage.Failures
import RecordApi.Proofs.Query.Grammar
import RecordApi.Proofs.Query.Merging
import RecordApi.Proofs.Query.Reordering
import RecordApi.Proofs.Params.Texts
import RecordApi.Proofs.Params.Numbering
import RecordApi.Proofs.Params.Clashes
import RecordApi.Proofs.Params.Roots
import RecordApi.Proofs.Params.Reading
import RecordApi.Proofs.Params.Straying
import RecordApi.Proofs.Params.Strangers
import RecordApi.Proofs.Storage.Destroying
import RecordApi.Proofs.Storage.Readable
import RecordApi.Proofs.Storage.Changing
import RecordApi.Proofs.Storage.Committing
import RecordApi.Proofs.Storage.Framing
import RecordApi.Proofs.Sorting
import RecordApi.Proofs.Params.Appending
import RecordApi.Proofs.Storage.Validity
import RecordApi.Proofs.Storage.Repeating
import RecordApi.Proofs.Api.Repeating
import RecordApi.Proofs.Storage.Truths
import RecordApi.Proofs.Storage.Negation
import RecordApi.Proofs.Storage.Placing
import RecordApi.Proofs.Storage.Ranging
import RecordApi.Proofs.Text.Cases
import RecordApi.Proofs.Conversion.Settling
import RecordApi.Proofs.Pattern.Caseless
import RecordApi.Proofs.Pattern.Wildcards
import RecordApi.Proofs.Storage.Asking
import RecordApi.Proofs.Storage.Patterns
import RecordApi.Proofs.Storage.LetterCase
import RecordApi.Proofs.Number.Spelling
import RecordApi.Proofs.Number.Values
import RecordApi.Proofs.Storage.Comparing
import RecordApi.Proofs.Number.Nearest
import RecordApi.Proofs.Query.Pages
import RecordApi.Proofs.Calendar.Days
import RecordApi.Proofs.Calendar.Instants
import RecordApi.Proofs.Conversion.Zones
import RecordApi.Proofs.Conversion.Refusals
import RecordApi.Proofs.Console.Blocks
import RecordApi.Proofs.Params.Splitting
import RecordApi.Proofs.Storage.Directions
import RecordApi.Proofs.Api.Paging
