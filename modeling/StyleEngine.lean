import StyleEngine.Text.Case
import StyleEngine.Expression.Evaluate
import StyleEngine.Registry
import StyleEngine.Theme.Shadow
import StyleEngine.Dimension
import StyleEngine.Resolution
import StyleEngine.Schema.Extent
import StyleEngine.Theme.Defaults
import StyleEngine.Json
import StyleEngine.Settings
import StyleEngine.Service
import StyleEngine.Service.Host
import StyleEngine.Proofs.Fields
import StyleEngine.Proofs.Printable
import StyleEngine.Proofs.Json
import StyleEngine.Proofs.Text.Blank
import StyleEngine.Proofs.Number.Numeral
import StyleEngine.Proofs.Registry.Allocation
import StyleEngine.Proofs.Registry.Request
import StyleEngine.Proofs.Registry.Run
import StyleEngine.Proofs.Resolution.Walk
import StyleEngine.Proofs.Resolution.Elevation
import StyleEngine.Proofs.Registry.Origin
import StyleEngine.Proofs.Registry.Retrying
import StyleEngine.Proofs.Expression.Grammar
import StyleEngine.Proofs.Expression.Unambiguous
import StyleEngine.Proofs.Resolution.Placeholder
import StyleEngine.Proofs.Expression.Parsing
import StyleEngine.Proofs.Resolution.Pointwise
import StyleEngine.Proofs.Resolution.Resolved
import StyleEngine.Proofs.Resolution.Fault
import StyleEngine.Proofs.Service.Resolve
import StyleEngine.Proofs.Registry.Counting
import StyleEngine.Proofs.Registry.NewNames
import StyleEngine.Proofs.Theme.Printable
import StyleEngine.Proofs.Service.Request
import StyleEngine.Proofs.Service.Delivery
import StyleEngine.Proofs.Service.History
import StyleEngine.Proofs.Service.Placeholders
import StyleEngine.Proofs.Theme.Table
import StyleEngine.Proofs.Resolution.FixedPoint
import StyleEngine.Proofs.Resolution.Observation
import StyleEngine.Proofs.Service.Deletion
import StyleEngine.Proofs.Expression.Spelling
import StyleEngine.Proofs.Expression.Tokens
import StyleEngine.Proofs.Expression.Nesting
import StyleEngine.Proofs.Length.Printed
import StyleEngine.Proofs.Registry.Bindings
import StyleEngine.Proofs.Registry.Colors
import StyleEngine.Proofs.Registry.Reuse
import StyleEngine.Proofs.Float.Rounding
import StyleEngine.Proofs.Float.Arithmetic
import StyleEngine.Proofs.Number.Decimal
import StyleEngine.Proofs.Number.Printed
import StyleEngine.Proofs.Resolution.Margins
import StyleEngine.Proofs.Resolution.Overflow
import StyleEngine.Proofs.Theme.Defaults
import StyleEngine.Proofs.Number.Longest
import StyleEngine.Proofs.Length.Split
import StyleEngine.Proofs.Resolution.WhiteSpace
import StyleEngine.Proofs.Expression.Mentioned
import StyleEngine.Proofs.Resolution.Answer
import StyleEngine.Proofs.Dimension.Unit
import StyleEngine.Proofs.Float.Value
import StyleEngine.Proofs.Float.Error
import StyleEngine.Proofs.Float.Operations
import StyleEngine.Proofs.Dimension.Room
import StyleEngine.Proofs.Expression.Call
import StyleEngine.Proofs.Length.Hundredth
import StyleEngine.Proofs.Resolution.Calculated
import StyleEngine.Proofs.Resolution.WorkList
import StyleEngine.Proofs.Float.Rank
import StyleEngine.Proofs.Expression.Arguments
import StyleEngine.Proofs.Expression.Order
import StyleEngine.Proofs.Expression.Procedure
import StyleEngine.Proofs.Expression.Agreement
import StyleEngine.Proofs.Expression.Progress
