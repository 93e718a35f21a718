import DocCheck.Assoc
import DocCheck.Command.Arguments
import DocCheck.Command.Run
import DocCheck.Command.Table
import DocCheck.Comment.Basic
import DocCheck.Comment.Line
import DocCheck.Comment.Parser
import DocCheck.Config.Basic
import DocCheck.Config.File
import DocCheck.Config.Load
import DocCheck.Config.Order
import DocCheck.Config.Resolve
import DocCheck.Config.Value
import DocCheck.Decimal.Binary
import DocCheck.Decimal.Fixed
import DocCheck.Decimal.Reader
import DocCheck.Decimal.Shortest
import DocCheck.Files.Discovery
import DocCheck.Files.Path
import DocCheck.Files.Tree
import DocCheck.Json.Basic
import DocCheck.Json.Reader
import DocCheck.Lint.Basic
import DocCheck.Location
import DocCheck.Main
import DocCheck.Proofs.Text.Blank
import DocCheck.Report.Basic
import DocCheck.Report.Porcelain
import DocCheck.Report.Rich
import DocCheck.Report.Structured
import DocCheck.Rule.Access
import DocCheck.Rule.Annotations
import DocCheck.Rule.Basic
import DocCheck.Rule.Evaluate
import DocCheck.Rule.Params
import DocCheck.Rule.Presence
import DocCheck.Rule.Returns
import DocCheck.Signature.Basic
import DocCheck.Signature.Naming
import DocCheck.Source.Basic
import DocCheck.Script.Class
import DocCheck.Script.Cursor
import DocCheck.Script.Declaration
import DocCheck.Script.Element
import DocCheck.Script.Expression
import DocCheck.Script.Function
import DocCheck.Script.Literal
import DocCheck.Script.Parse
import DocCheck.Script.Pattern
import DocCheck.Script.Piece
import DocCheck.Script.Program
import DocCheck.Script.Statement
import DocCheck.Script.Token
import DocCheck.Script.Type
import DocCheck.Tag.Keyword
import DocCheck.Tag.Preset
import DocCheck.Text.Base64
import DocCheck.Text.Blank
import DocCheck.Text.Lower
import DocCheck.Text.Newline
import DocCheck.Text.Printable
import DocCheck.Text.Quoted
import DocCheck.Text.Range
import DocCheck.Text.Word
import DocCheck.Tree.Basic
import DocCheck.Tree.Flow
import DocCheck.Tree.Function
import DocCheck.Tree.Kinds
import DocCheck.Tree.Place
import DocCheck.Tree.Statement
import DocCheck.TypeExpr.Basic
import DocCheck.TypeExpr.Kinds
import DocCheck.TypeExpr.Parser
import DocCheck.TypeExpr.Token
import DocCheck.ValueKind
import DocCheck.Yaml.Cursor
import DocCheck.Yaml.Kind
import DocCheck.Yaml.Layout
import DocCheck.Yaml.Moment
import DocCheck.Yaml.Node
import DocCheck.Yaml.Number
import DocCheck.Yaml.Scalar
import DocCheck.Yaml.Token
import DocCheck.Yaml.Value
import DocCheck.Proofs.TypeExpr.Token
import DocCheck.Proofs.TypeExpr.Grammar
import DocCheck.Proofs.TypeExpr.Reads
import DocCheck.Proofs.TypeExpr.Written
import DocCheck.Proofs.TypeExpr.RoundTrip
import DocCheck.Proofs.TypeExpr.Complete
import DocCheck.Proofs.Tree.Execution
import DocCheck.Proofs.Tree.Soundness
import DocCheck.Proofs.Comment.Line
import DocCheck.Proofs.Comment.Invariant
import DocCheck.Proofs.Comment.NormalForm
import DocCheck.Proofs.Tree.Jumps
import DocCheck.Proofs.Tree.Precision
import DocCheck.Proofs.Comment.Location
import DocCheck.Proofs.Comment.Brackets
import DocCheck.Proofs.Comment.TagType
import DocCheck.Proofs.Comment.Layout
import DocCheck.Proofs.Comment.Partition
import DocCheck.Proofs.Rule.Order
import DocCheck.Proofs.Rule.Message
import DocCheck.Proofs.Report.Porcelain
import DocCheck.Proofs.Config.Told
import DocCheck.Proofs.Rule.Independence
import DocCheck.Proofs.Comment.Moved
import DocCheck.Proofs.Rule.Places
import DocCheck.Proofs.Files.Listing
import DocCheck.Proofs.Lint.Run
import DocCheck.Proofs.Comment.ParamTag
import DocCheck.Proofs.Comment.TagParts
import DocCheck.Proofs.Comment.Empty
import DocCheck.Proofs.TypeExpr.Kinds
import DocCheck.Proofs.Rule.Returns
import DocCheck.Proofs.Tag.Combined
import DocCheck.Proofs.Rule.Annotations
import DocCheck.Proofs.Config.Valid
import DocCheck.Proofs.Rule.Respelled
import DocCheck.Proofs.Rule.ParamNames
import DocCheck.Proofs.Rule.Positions
import DocCheck.Proofs.Rule.Casing
import DocCheck.Proofs.Tree.Preorder
import DocCheck.Proofs.Tree.Walk
import DocCheck.Proofs.Tree.Expression
import DocCheck.Proofs.Tree.Reached
import DocCheck.Proofs.Rule.Summary
import DocCheck.Proofs.Rule.Sentence
import DocCheck.Proofs.Tree.Evaluation
import DocCheck.Proofs.Tree.Nested
import DocCheck.Proofs.Files.Walk
import DocCheck.Proofs.Report.Rich
import DocCheck.Proofs.Json.Escape
import DocCheck.Proofs.Json.Numeral
import DocCheck.Proofs.Json.Double
import DocCheck.Proofs.Json.RoundTrip
import DocCheck.Proofs.Report.Structured
import DocCheck.Proofs.Tree.Restyled
import DocCheck.Proofs.TypeExpr.Scan
import DocCheck.Proofs.TypeExpr.Descent
