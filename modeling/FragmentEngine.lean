import FragmentEngine.Text.Blank
import FragmentEngine.Text.Letter
import FragmentEngine.Text.Lowercase
import FragmentEngine.Text.Escaped
import FragmentEngine.Text.Utf8
import FragmentEngine.Text.Split
import FragmentEngine.Binary64
import FragmentEngine.Decimal.Whole
import FragmentEngine.Decimal.Layout
import FragmentEngine.Decimal.Fixed
import FragmentEngine.Decimal.Numeral
import FragmentEngine.Value
import FragmentEngine.Error
import FragmentEngine.Expr.Parser
import FragmentEngine.Expr.Evaluator
import FragmentEngine.Fragment.Image
import FragmentEngine.Request.Params
import FragmentEngine.Request.Argument
import FragmentEngine.Select.Request
import FragmentEngine.Insert.Row
import FragmentEngine.Insert.Statement
import FragmentEngine.Json.Reader
import FragmentEngine.Json.Printer
import FragmentEngine.Value.Form
import FragmentEngine.Catalog.Form
import FragmentEngine.Store.Basic
import FragmentEngine.Engine.Import
import FragmentEngine.Engine.World
import FragmentEngine.Engine.Session
import FragmentEngine.Server.Url
import FragmentEngine.Server.Connection
import FragmentEngine.Main
import FragmentEngine.Proofs.Outcome
import FragmentEngine.Proofs.Expr.Agreement
import FragmentEngine.Proofs.Select.Binding
import FragmentEngine.Proofs.Select.Grouping
import FragmentEngine.Proofs.Select.IdentifierColumns
import FragmentEngine.Proofs.Select.InnerJoin
import FragmentEngine.Proofs.Catalog
import FragmentEngine.Proofs.Catalog.Ledger
import FragmentEngine.Proofs.Store
import FragmentEngine.Proofs.Insert.Row
import FragmentEngine.Proofs.Insert.Statement
import FragmentEngine.Proofs.Engine.Protocol
import FragmentEngine.Proofs.Engine.Atomic
import FragmentEngine.Proofs.Engine.Agreement
import FragmentEngine.Proofs.Engine.Interleaving
import FragmentEngine.Proofs.Engine.Stranding
import FragmentEngine.Proofs.Engine.Runs
import FragmentEngine.Proofs.Engine.Footprint
import FragmentEngine.Proofs.Engine.FirstStored
import FragmentEngine.Proofs.Engine.OpenStatements
import FragmentEngine.Proofs.Engine.Batches
import FragmentEngine.Proofs.Text.Blank
import FragmentEngine.Proofs.Text.Utf8
import FragmentEngine.Proofs.Fragment.Cell
import FragmentEngine.Proofs.Fragment.Image
import FragmentEngine.Proofs.Fragment.Accepted
import FragmentEngine.Proofs.Fragment.Truncated
import FragmentEngine.Proofs.Fragment.ImageSize
import FragmentEngine.Proofs.Expr.Printing
import FragmentEngine.Proofs.Expr.Parsing
import FragmentEngine.Proofs.Expr.RoundTrip
import FragmentEngine.Proofs.Expr.Lexing
import FragmentEngine.Proofs.Expr.Depth
import FragmentEngine.Proofs.Expr.Evaluation
import FragmentEngine.Proofs.Expr.RollUp
import FragmentEngine.Proofs.Expr.ResultType
import FragmentEngine.Proofs.Expr.Emission
import FragmentEngine.Proofs.Expr.SingleRow
import FragmentEngine.Proofs.Select.GroupedColumn
import FragmentEngine.Proofs.Select.InRange
import FragmentEngine.Proofs.Select.PlainColumn
import FragmentEngine.Proofs.Select.MemberColumn
import FragmentEngine.Proofs.Store.Disk
import FragmentEngine.Proofs.Store.Files
import FragmentEngine.Proofs.Engine.Mirror
import FragmentEngine.Proofs.Json.Number
import FragmentEngine.Proofs.Json.Quoted
import FragmentEngine.Proofs.Json.RoundTrip
import FragmentEngine.Proofs.Catalog.Form
import FragmentEngine.Proofs.Engine.Saving
import FragmentEngine.Proofs.Engine.Reopening
import FragmentEngine.Proofs.Fragment.WellFormed
import FragmentEngine.Proofs.Select.Projected
import FragmentEngine.Proofs.Select.KeyColumn
import FragmentEngine.Proofs.Engine.Held
import FragmentEngine.Proofs.Store.Directories
import FragmentEngine.Proofs.Engine.Housing
import FragmentEngine.Proofs.Engine.Storing
import FragmentEngine.Proofs.Engine.Upkeep
import FragmentEngine.Proofs.Engine.Readable
import FragmentEngine.Proofs.Engine.ColumnNames
import FragmentEngine.Proofs.Request.Sections
import FragmentEngine.Proofs.Request.Params
import FragmentEngine.Proofs.Expr.Names
import FragmentEngine.Proofs.Select.AllColumns
import FragmentEngine.Proofs.Request.Written
import FragmentEngine.Proofs.Engine.Selecting
import FragmentEngine.Proofs.Engine.ColumnQueries
import FragmentEngine.Proofs.Engine.Detour
import FragmentEngine.Proofs.Select.SingleEntry
import FragmentEngine.Proofs.Select.Pages
import FragmentEngine.Proofs.Select.StableOrder
import FragmentEngine.Proofs.Fragment.Reordered
import FragmentEngine.Proofs.Select.OrderedFragment
import FragmentEngine.Proofs.Select.Complement
import FragmentEngine.Proofs.Select.BoundVariables
import FragmentEngine.Proofs.Expr.EmittedType
import FragmentEngine.Proofs.Select.ColumnType
import FragmentEngine.Proofs.Headroom
import FragmentEngine.Proofs.Select.Aliases
import FragmentEngine.Proofs.Select.IdentifierRange
import FragmentEngine.Proofs.Select.Numbering
import FragmentEngine.Proofs.Decimal.Whole
import FragmentEngine.Proofs.Hexadecimal
import FragmentEngine.Proofs.Request.Scanned
import FragmentEngine.Proofs.Request.Argument
import FragmentEngine.Proofs.Expr.Placeholder
import FragmentEngine.Proofs.Text.Run
import FragmentEngine.Proofs.Decimal.Numeral
import FragmentEngine.Proofs.Insert.Unquoted
import FragmentEngine.Proofs.Expr.WrittenTokens
import FragmentEngine.Proofs.Insert.Literal
import FragmentEngine.Proofs.Server.Url
import FragmentEngine.Proofs.Function.Index
import FragmentEngine.Proofs.Function.Words
import FragmentEngine.Proofs.Function.Digits
import FragmentEngine.Proofs.Function.Collapse
import FragmentEngine.Proofs.Expr.SymbolTable
import FragmentEngine.Proofs.Engine.Importing
import FragmentEngine.Proofs.Server.Table
import FragmentEngine.Proofs.Expr.Correspondence
import FragmentEngine.Proofs.Expr.Watched
import FragmentEngine.Proofs.Expr.Lookahead
import FragmentEngine.Proofs.Expr.Balance
import FragmentEngine.Proofs.Expr.Accepted
