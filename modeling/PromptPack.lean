import PromptPack.Budget.Advisory
import PromptPack.Budget.Balance
import PromptPack.Budget.Ceiling
import PromptPack.Budget.Forecast
import PromptPack.Budget.Oversized
import PromptPack.Budget.PackFile
import PromptPack.Budget.PartPath
import PromptPack.Budget.Split
import PromptPack.Budget.TokenText
import PromptPack.Config.ConfigFile
import PromptPack.Config.PackConfig
import PromptPack.Config.Settings
import PromptPack.Document.Display
import PromptPack.Document.Json.Reader
import PromptPack.Document.Json.Writer
import PromptPack.Document.Value
import PromptPack.Document.Yaml.BlockScalar
import PromptPack.Document.Yaml.Cursor
import PromptPack.Document.Yaml.Library
import PromptPack.Document.Yaml.Moment
import PromptPack.Document.Yaml.Node
import PromptPack.Document.Yaml.Plain
import PromptPack.Document.Yaml.Property
import PromptPack.Document.Yaml.Quoted
import PromptPack.Document.Yaml.Reader
import PromptPack.Document.Yaml.Scalar
import PromptPack.Document.Yaml.ScalarWriter
import PromptPack.Document.Yaml.Style
import PromptPack.Document.Yaml.Tag
import PromptPack.Document.Yaml.Token
import PromptPack.Document.Yaml.Writer
import PromptPack.Estimation.Base
import PromptPack.Estimation.Delivery
import PromptPack.Estimation.Dispatch
import PromptPack.Estimation.Estimator
import PromptPack.Estimation.Recompute
import PromptPack.Fault
import PromptPack.Model.Profile
import PromptPack.Model.Registry
import PromptPack.Numeric.Binary64
import PromptPack.Numeric.Decimal
import PromptPack.Numeric.DecimalText
import PromptPack.Numeric.IntegerText
import PromptPack.Numeric.Number
import PromptPack.Numeric.Total
import PromptPack.Packing.Attribution
import PromptPack.Packing.Bundle
import PromptPack.Packing.Contents
import PromptPack.Packing.Pack
import PromptPack.Packing.Prepare
import PromptPack.Proofs.Budget.AdvisoryLevel
import PromptPack.Proofs.Budget.Answers
import PromptPack.Proofs.Budget.Balance
import PromptPack.Proofs.Budget.Ceiling
import PromptPack.Proofs.Budget.Ends
import PromptPack.Proofs.Budget.Forecast
import PromptPack.Proofs.Budget.NominalCeiling
import PromptPack.Proofs.Budget.Overrun
import PromptPack.Proofs.Budget.PartNames
import PromptPack.Proofs.Budget.PartPath
import PromptPack.Proofs.Budget.Parts
import PromptPack.Proofs.Config.Acceptance
import PromptPack.Proofs.Config.RoundTrip
import PromptPack.Proofs.Config.SavedYaml
import PromptPack.Proofs.Document.Json.RoundTrip
import PromptPack.Proofs.Document.Json.Scalars
import PromptPack.Proofs.Estimation.Batch
import PromptPack.Proofs.Estimation.Cache
import PromptPack.Proofs.Estimation.Changes
import PromptPack.Proofs.Estimation.Coverage
import PromptPack.Proofs.Estimation.Debounce
import PromptPack.Proofs.Estimation.Ledger
import PromptPack.Proofs.Estimation.Questions
import PromptPack.Proofs.Estimation.Recompute
import PromptPack.Proofs.Estimation.Refusal
import PromptPack.Proofs.Estimation.Session
import PromptPack.Proofs.Estimation.Settled
import PromptPack.Proofs.Estimation.Textless
import PromptPack.Proofs.Model.Registry
import PromptPack.Proofs.Numeric.HalfUp
import PromptPack.Proofs.Numeric.Range
import PromptPack.Proofs.Packing.Agreement
import PromptPack.Proofs.Packing.Attribution
import PromptPack.Proofs.Packing.Layering
import PromptPack.Proofs.Packing.Outcome
import PromptPack.Proofs.Packing.Override
import PromptPack.Proofs.Packing.Validation
import PromptPack.Proofs.Prune.Decorations
import PromptPack.Proofs.Prune.Exports
import PromptPack.Proofs.Prune.Lines
import PromptPack.Proofs.Prune.Order
import PromptPack.Proofs.Prune.Removal
import PromptPack.Proofs.Prune.Reports
import PromptPack.Proofs.Prune.Siblings
import PromptPack.Proofs.Text.Gaps
import PromptPack.Proofs.Text.Lines
import PromptPack.Proofs.Text.Reading
import PromptPack.Proofs.Text.SolidLines
import PromptPack.Proofs.Text.Trim
import PromptPack.Proofs.Transform.ClearedLines
import PromptPack.Proofs.Transform.Elements
import PromptPack.Proofs.Transform.Idempotence
import PromptPack.Proofs.Transform.Lexer
import PromptPack.Proofs.Transform.Literals
import PromptPack.Proofs.Transform.Rereading
import PromptPack.Proofs.Transform.Subsequence
import PromptPack.Proofs.Transform.Tagless
import PromptPack.Proofs.Transform.Whitespace
import PromptPack.Prune.Declaration
import PromptPack.Prune.Language
import PromptPack.Prune.Protection
import PromptPack.Prune.Reachability
import PromptPack.Prune.Strip
import PromptPack.Source.Disk
import PromptPack.Source.SourceFile
import PromptPack.Source.StoredFile
import PromptPack.Table
import PromptPack.Text.Blank
import PromptPack.Text.Letter
import PromptPack.Text.LowerCase
import PromptPack.Text.Pattern
import PromptPack.Text.Printable
import PromptPack.Text.Removal
import PromptPack.Text.Scan
import PromptPack.Text.Search
import PromptPack.Text.Utf8
import PromptPack.Tokens.Count
import PromptPack.Tokens.Service
import PromptPack.Tokens.Strategy
import PromptPack.Trace
import PromptPack.Transform.Apply
import PromptPack.Transform.CommentSyntax
import PromptPack.Transform.Comments
import PromptPack.Transform.Markdown
import PromptPack.Transform.Whitespace
