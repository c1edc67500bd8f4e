import BusinessRules.Cache
import BusinessRules.Decimal.Binary64
import BusinessRules.Decimal.Digits
import BusinessRules.Decimal.Numeral
import BusinessRules.Decimal.Shortest
import BusinessRules.Decimal.Stepwise
import BusinessRules.Engine
import BusinessRules.Error
import BusinessRules.Evaluation.Basic
import BusinessRules.Evaluation.Condition
import BusinessRules.Evaluation.Error
import BusinessRules.Evaluation.Literal
import BusinessRules.Evaluation.Record
import BusinessRules.Expr.Basic
import BusinessRules.Expr.Combine
import BusinessRules.Expr.ParseError
import BusinessRules.Expr.Parser
import BusinessRules.Expr.Symbol
import BusinessRules.Expr.Token
import BusinessRules.Host.Session
import BusinessRules.Host.Spelling
import BusinessRules.Host.Value
import BusinessRules.Json.Basic
import BusinessRules.Json.Document
import BusinessRules.Json.Lexeme
import BusinessRules.Json.Members
import BusinessRules.Json.Nesting
import BusinessRules.Json.Reader
import BusinessRules.Json.Shown
import BusinessRules.Proofs.Catalogue
import BusinessRules.Proofs.Combination
import BusinessRules.Proofs.CombinedRules
import BusinessRules.Proofs.Conversion
import BusinessRules.Proofs.Depth
import BusinessRules.Proofs.Grammar
import BusinessRules.Proofs.HostExpressions
import BusinessRules.Proofs.Ledger
import BusinessRules.Proofs.Parsing
import BusinessRules.Proofs.Postorder
import BusinessRules.Proofs.RoundTrip
import BusinessRules.Proofs.Scanning
import BusinessRules.Proofs.StoredForm
import BusinessRules.Proofs.StoredRules
import BusinessRules.Proofs.Traces
import BusinessRules.Settings
import BusinessRules.Store.Catalogue
import BusinessRules.Store.Node
import BusinessRules.Store.Timestamp
import BusinessRules.Text.Blank
import BusinessRules.Text.Position
import BusinessRules.Text.Printable
import BusinessRules.Text.Quoted
import BusinessRules.Proofs.Decoding
import BusinessRules.Proofs.ConditionText
import BusinessRules.Proofs.Comparisons
import BusinessRules.Proofs.Rendering
import BusinessRules.Proofs.History
import BusinessRules.Proofs.DepthLimit
import BusinessRules.Proofs.Sessions
import BusinessRules.Proofs.Parentheses
import BusinessRules.Proofs.Passes
import BusinessRules.Proofs.ParseErrors
import BusinessRules.Proofs.Strictness
import BusinessRules.Proofs.ConjunctionDepth
import BusinessRules.Proofs.CacheRuns
import BusinessRules.Proofs.StoredCombinations
import BusinessRules.Proofs.Words
import BusinessRules.Proofs.ByteOffsets
import BusinessRules.Proofs.PaddedText
import BusinessRules.Proofs.ConditionWords
import BusinessRules.Proofs.TextBytes
import BusinessRules.Proofs.Comparators
import BusinessRules.Proofs.NamedFields
import BusinessRules.Proofs.Literals
import BusinessRules.Proofs.Worklists
import BusinessRules.Proofs.Lexemes
import BusinessRules.Proofs.DocumentText
import BusinessRules.Proofs.PrintedText
import BusinessRules.Proofs.SettingsText
