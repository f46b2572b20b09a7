import CartoStyle.Json.Basic
import CartoStyle.Json.Path
import CartoStyle.Decimal.Basic
import CartoStyle.Decimal.Binary64
import CartoStyle.Decimal.Layout
import CartoStyle.Json.Printer
import CartoStyle.Json.Format
import CartoStyle.Json.Reader
import CartoStyle.Diagnostic
import CartoStyle.Document
import CartoStyle.Expression.Basic
import CartoStyle.Expression.Operator
import CartoStyle.Expression.Simplify
import CartoStyle.Expression.Validate
import CartoStyle.Json.Shape
import CartoStyle.Style.Field
import CartoStyle.Style.Kind
import CartoStyle.Style.Basic
import CartoStyle.Lint.Report
import CartoStyle.Optimize.Pass
import CartoStyle.Optimize.Run
import CartoStyle.Style.Edit
import CartoStyle.Geo.Basic
import CartoStyle.Geo.Decode
import CartoStyle.Geo.Extent
import CartoStyle.Geo.Summary
import CartoStyle.Tool.Arguments
import CartoStyle.Tool.Schema
import CartoStyle.Tool.Basic
import CartoStyle.Tool.Call
import CartoStyle.Style.Text
import CartoStyle.Command.Failure
import CartoStyle.Command.Invocation
import CartoStyle.Command.Paint
import CartoStyle.Command.Report
import CartoStyle.Command.Run
import CartoStyle.Command.Folder
import CartoStyle.Main
import CartoStyle.Proofs.Json.Members
import CartoStyle.Proofs.Style.Fields
import CartoStyle.Proofs.Expression.Tree
import CartoStyle.Proofs.Expression.Simplify
import CartoStyle.Proofs.Style.Containers
import CartoStyle.Proofs.Style.Strict
import CartoStyle.Proofs.Style.Entries
import CartoStyle.Proofs.Style.RoundTrip
import CartoStyle.Proofs.Style.Edited
import CartoStyle.Proofs.Optimize.Fold
import CartoStyle.Proofs.Optimize.Distinct
import CartoStyle.Proofs.Optimize.Trim
import CartoStyle.Proofs.Optimize.Frame
import CartoStyle.Proofs.Json.Quote
import CartoStyle.Proofs.Json.Numerals
import CartoStyle.Proofs.Json.NumberWord
import CartoStyle.Proofs.Json.Text
import CartoStyle.Proofs.Optimize.Signature
import CartoStyle.Proofs.Optimize.Settle
import CartoStyle.Proofs.Optimize.Rerun
import CartoStyle.Proofs.Expression.Errors
import CartoStyle.Proofs.Optimize.Accept
import CartoStyle.Proofs.Expression.Examined
import CartoStyle.Proofs.Lint.ErrorCount
import CartoStyle.Proofs.Lint.NoErrors
import CartoStyle.Proofs.Optimize.Errors
import CartoStyle.Proofs.Lint.Verdict
import CartoStyle.Proofs.Optimize.Sources
import CartoStyle.Proofs.Expression.Report
import CartoStyle.Proofs.Expression.Nesting
import CartoStyle.Proofs.Expression.Truncated
import CartoStyle.Proofs.Lint.Cap
import CartoStyle.Proofs.Optimize.Empty
import CartoStyle.Proofs.Style.FirstFlaw
import CartoStyle.Proofs.Geo.FirstFlaw
import CartoStyle.Proofs.Style.Agreement
import CartoStyle.Proofs.Lint.Codes
import CartoStyle.Proofs.Tool.Arguments
import CartoStyle.Proofs.Tool.Outcome
import CartoStyle.Proofs.Tool.Structured
import CartoStyle.Proofs.Expression.NormalForm
import CartoStyle.Proofs.Expression.Meaning
import CartoStyle.Proofs.Optimize.Commute
import CartoStyle.Proofs.Json.ReadNumeral
import CartoStyle.Proofs.Json.ReadBack
import CartoStyle.Proofs.Document
import CartoStyle.Proofs.Decimal.Shortest
import CartoStyle.Proofs.Expression.Text
import CartoStyle.Proofs.Expression.Canonical
import CartoStyle.Proofs.Json.Injective
import CartoStyle.Proofs.Lint.Order
import CartoStyle.Proofs.Optimize.Account
import CartoStyle.Proofs.Optimize.Duplicates
import CartoStyle.Proofs.Optimize.Size
import CartoStyle.Proofs.Lint.CapWarning
import CartoStyle.Proofs.Lint.Disable
import CartoStyle.Proofs.Lint.WholeWalk
import CartoStyle.Proofs.Decimal.Order
import CartoStyle.Proofs.Decimal.Whole
import CartoStyle.Proofs.Geo.Places
import CartoStyle.Proofs.Geo.Reading
import CartoStyle.Proofs.Geo.Walk
import CartoStyle.Proofs.Json.PathText
import CartoStyle.Proofs.Geo.Positions
import CartoStyle.Proofs.Geo.Extent
import CartoStyle.Proofs.Geo.Tally
import CartoStyle.Proofs.Geo.Summary
import CartoStyle.Proofs.Optimize.Groups
