import TreeMatch.Assoc
import TreeMatch.Check.Basic
import TreeMatch.Check.Stock
import TreeMatch.Coverage
import TreeMatch.Diagnostic.Basic
import TreeMatch.Diagnostic.Cause
import TreeMatch.Diagnostic.Request
import TreeMatch.Document.Disk
import TreeMatch.Document.Load
import TreeMatch.Document.Location
import TreeMatch.Document.Match
import TreeMatch.Json.Reader
import TreeMatch.Json.Writer
import TreeMatch.Log.Line
import TreeMatch.Log.Record
import TreeMatch.Log.Session
import TreeMatch.Log.Template
import TreeMatch.Moment
import TreeMatch.Numeric.Binary64
import TreeMatch.Numeric.Decimal
import TreeMatch.Numeric.Shortest
import TreeMatch.Outcome
import TreeMatch.Path.Basic
import TreeMatch.Path.Error
import TreeMatch.Path.Parse
import TreeMatch.Path.Written
import TreeMatch.Report.Basic
import TreeMatch.Report.Registers
import TreeMatch.Schema.Compile
import TreeMatch.Schema.Error
import TreeMatch.Settings.Basic
import TreeMatch.Settings.EnvFile
import TreeMatch.Text.Base64
import TreeMatch.Text.CaseMap
import TreeMatch.Text.DecimalDigit
import TreeMatch.Text.Hex
import TreeMatch.Text.Printable
import TreeMatch.Text.Quoted
import TreeMatch.Text.Utf8
import TreeMatch.Tree.AsKey
import TreeMatch.Tree.Basic
import TreeMatch.Tree.DistinctKeys
import TreeMatch.Tree.Endless
import TreeMatch.Tree.Equality
import TreeMatch.Tree.Lookup
import TreeMatch.Tree.SetOrder
import TreeMatch.Tree.Walk
import TreeMatch.Tree.Writable
import TreeMatch.Tree.Written
import TreeMatch.Validator
import TreeMatch.Yaml.BlockText
import TreeMatch.Yaml.Cursor
import TreeMatch.Yaml.Fault
import TreeMatch.Yaml.FlowText
import TreeMatch.Yaml.Graph.Basic
import TreeMatch.Yaml.Graph.Merge
import TreeMatch.Yaml.Graph.Reader
import TreeMatch.Yaml.Lexer
import TreeMatch.Yaml.Making
import TreeMatch.Yaml.PlainText
import TreeMatch.Yaml.Property
import TreeMatch.Yaml.Scalar
import TreeMatch.Yaml.Tag
import TreeMatch.Yaml.Timestamp
import TreeMatch.Yaml.Token
import TreeMatch.Yaml.Value
import TreeMatch.Proofs.Children
import TreeMatch.Proofs.LeafPaths
import TreeMatch.Proofs.Following
import TreeMatch.Proofs.Running
import TreeMatch.Proofs.Compiling
import TreeMatch.Proofs.Bisection
import TreeMatch.Proofs.HiddenFailures
import TreeMatch.Proofs.RecursiveMatch
import TreeMatch.Proofs.TextKeys
import TreeMatch.Proofs.Closing
import TreeMatch.Proofs.LiteralMatch
import TreeMatch.Proofs.RoundTrip
import TreeMatch.Proofs.NormalForm
import TreeMatch.Proofs.Walking
import TreeMatch.Proofs.Antichain
import TreeMatch.Proofs.Appending
import TreeMatch.Proofs.Trailing
import TreeMatch.Proofs.Absence
import TreeMatch.Proofs.Ancestry
import TreeMatch.Proofs.Merging
import TreeMatch.Proofs.SelfMatch
import TreeMatch.Proofs.Grammar
import TreeMatch.Proofs.Composing
import TreeMatch.Proofs.JointCoverage
import TreeMatch.Proofs.Splitting
import TreeMatch.Proofs.SameKeys
import TreeMatch.Proofs.Rearranging
import TreeMatch.Proofs.Equivalence
import TreeMatch.Proofs.KeyOrder
import TreeMatch.Proofs.History
import TreeMatch.Proofs.Unaddressed
import TreeMatch.Proofs.TruthValues
import TreeMatch.Proofs.Forgiving
import TreeMatch.Proofs.Interruption
import TreeMatch.Proofs.Regrouping
import TreeMatch.Proofs.LogSetup
import TreeMatch.Proofs.Continuing
import TreeMatch.Proofs.Utf8Encoding
import TreeMatch.Proofs.JsonReading
import TreeMatch.Proofs.Scanning
import TreeMatch.Proofs.Lexing
import TreeMatch.Proofs.GraphReading
import TreeMatch.Proofs.TagPromises
import TreeMatch.Proofs.Loading
import TreeMatch.Proofs.LoadedKeys
